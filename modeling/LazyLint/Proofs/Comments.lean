import LazyLint.Import
import LazyLint.Proofs.Goals
import LazyLint.Proofs.Pieces

/-!
# Comments never matter

A comment may stand between any two tokens, so it may turn up among the children of any node. `Erased`
relates a tree to the same tree without some of its comments, whichever they are; all other nodes keep
their spans and their rows.

Every part of a tree that lowering looks at is found by a filter over the children that lets no comment
pass, and such a filter gives the same nodes before and after (`Thinned.filter`). So the plans of a node
ask for the same nodes and build the same of them (`plan_erased`), and the lowered tree does not change.
The searches of the goals do come by comments, and find nothing in them.
-/

namespace LazyLint.Cst

/-! ## Erasing -/

/-- A comment: no other node is in it, and it fills no field of its parent. -/
structure IsComment (c : Node) : Prop where
  kind : isSkipped c.kind = true
  leaf : c.children = []
  field : c.head.field = none

/-- A comment that is no error; the grammar can flag one that is. -/
structure IsCleanComment (c : Node) : Prop extends IsComment c where
  clean : c.hasError = false

theorem IsComment.kind_ne {c : Node} (h : IsComment c) (kind : String)
    (hkind : isSkipped kind = false) : c.kind ≠ kind := by
  intro he
  have hskipped := h.kind
  rw [he, hkind] at hskipped
  cases hskipped

/-- Nodes next to what is left of them: each is left as `R` says, or is gone, for which it must be one
that `P` holds of. -/
inductive Thinned (P : Node → Prop) (R : Node → Node → Prop) : List Node → List Node → Prop
  | nil : Thinned P R [] []
  | keep {n m : Node} {ns ms : List Node} (h : R n m) (hs : Thinned P R ns ms) :
    Thinned P R (n :: ns) (m :: ms)
  | drop {n : Node} {ns ms : List Node} (h : P n) (hs : Thinned P R ns ms) : Thinned P R (n :: ns) ms

/-- A tree and the same tree without some of the nodes below its root that `P` holds of. -/
inductive Erased (P : Node → Prop) : Node → Node → Prop
  | mk {h : Head} {cs ds : List Node} (hs : Thinned P (Erased P) cs ds) :
    Erased P (.mk h cs) (.mk h ds)

section Rel

variable {R : Node → Node → Prop} {o o' : Option Node}

theorem rel_inv (h : Option.Rel R o o') :
    o = none ∧ o' = none ∨ ∃ a b, o = some a ∧ o' = some b ∧ R a b := by
  cases h with
  | none => exact .inl ⟨rfl, rfl⟩
  | some hr => exact .inr ⟨_, _, rfl, rfl, hr⟩

theorem isSome_of_rel (h : Option.Rel R o o') : o'.isSome = o.isSome := by
  cases h <;> rfl

theorem toList_of_rel (h : Option.Rel R o o') : List.Forall₂ R o.toList o'.toList := by
  cases h with
  | none => exact .nil
  | some hr => exact .cons hr .nil

end Rel

section Erased

variable {P : Node → Prop} {R : Node → Node → Prop} {n m : Node} {ns ms : List Node}

theorem Erased.head_eq (h : Erased P n m) : m.head = n.head := by
  cases h
  rfl

theorem Erased.kind_eq (h : Erased P n m) : m.kind = n.kind :=
  congrArg Head.kind h.head_eq

theorem Erased.named_eq (h : Erased P n m) : m.named = n.named :=
  congrArg Head.named h.head_eq

theorem Erased.span_eq (h : Erased P n m) : m.span = n.span :=
  congrArg (fun d : Head => (d.start, d.stop)) h.head_eq

theorem Erased.thinned (h : Erased P n m) : Thinned P (Erased P) n.children m.children := by
  cases h with
  | mk hs => exact hs

/-- Induction over a tree and what is left of it: what holds of the children that are left is at hand
for a node. -/
theorem Erased.induct {motive : Node → Node → Prop}
    (step : ∀ {h : Head} {cs ds : List Node},
      Thinned P (fun n m => Erased P n m ∧ motive n m) cs ds → motive (.mk h cs) (.mk h ds))
    (h : Erased P n m) : motive n m :=
  @Erased.rec P (fun n m _ => motive n m)
    (fun ns ms _ => Thinned P (fun n m => Erased P n m ∧ motive n m) ns ms)
    (fun _ ih => step ih) .nil (fun hr _ hm ih => .keep ⟨hr, hm⟩ ih) (fun hp _ ih => .drop hp ih) n m h

theorem Thinned.imp {Q : Node → Prop} {S : Node → Node → Prop} (h : Thinned P R ns ms)
    (hdrop : ∀ n, P n → Q n) (hkeep : ∀ n m, R n m → S n m) : Thinned Q S ns ms := by
  induction h with
  | nil => exact .nil
  | keep hr _ ih => exact .keep (hkeep _ _ hr) ih
  | drop hn _ ih => exact .drop (hdrop _ hn) ih

theorem Erased.mono {Q : Node → Prop} (h : Erased P n m) (hdrop : ∀ n, P n → Q n) :
    Erased Q n m :=
  h.induct (motive := Erased Q) fun hs => .mk (hs.imp hdrop fun _ _ h => h.2)

theorem Thinned.refl {ns : List Node} (h : ∀ n ∈ ns, R n n) : Thinned P R ns ns := by
  induction ns with
  | nil => exact .nil
  | cons n ns ih =>
    exact .keep (h n (List.mem_cons_self ..)) (ih fun m hm => h m (List.mem_cons_of_mem n hm))

theorem Erased.refl (n : Node) : Erased P n n := by
  induction hw : n.weight using Nat.strongRecOn generalizing n with
  | _ w ih =>
    obtain ⟨h, cs⟩ := n
    refine .mk (.refl fun c hc => ih c.weight ?_ c rfl)
    have hle := Node.weight_le_of_mem hc
    rw [Node.weight] at hw
    omega

/-- A filter that lets no erased node pass finds the same nodes before and after. -/
theorem Thinned.filter (h : Thinned P R ns ms) {p : Node → Bool}
    (hkeep : ∀ n m, R n m → p m = p n) (hdrop : ∀ n, P n → p n = false) :
    List.Forall₂ R (ns.filter p) (ms.filter p) := by
  induction h with
  | nil => exact .nil
  | keep hr _ ih =>
    rw [List.filter_cons, List.filter_cons, hkeep _ _ hr]
    split
    · exact .cons hr ih
    · exact ih
  | drop hn _ ih =>
    rw [List.filter_cons_of_neg (by simp [hdrop _ hn])]
    exact ih

theorem Thinned.find? (h : Thinned P R ns ms) {p : Node → Bool}
    (hkeep : ∀ n m, R n m → p m = p n) (hdrop : ∀ n, P n → p n = false) :
    Option.Rel R (ns.find? p) (ms.find? p) := by
  have hfilter := h.filter hkeep hdrop
  rw [← List.head?_filter, ← List.head?_filter]
  revert hfilter
  generalize ns.filter p = xs
  generalize ms.filter p = ys
  rintro (_ | ⟨hr, -⟩)
  · exact .none
  · exact .some hr

end Erased

/-! ## What lowering finds -/

section Parts

variable {n m : Node} {ns ms : List Node}

theorem kept_erased (h : Thinned IsComment (Erased IsComment) ns ms) :
    List.Forall₂ (Erased IsComment) (kept ns) (kept ms) := by
  refine h.filter (fun n m h => ?_) fun c hc => ?_
  · rw [h.named_eq, h.kind_eq]
  · rw [hc.kind]
    simp

variable (h : Erased IsComment n m)

include h

theorem childByField_erased (field : String) :
    Option.Rel (Erased IsComment) (n.childByField field) (m.childByField field) := by
  refine h.thinned.find? (fun n m h => ?_) fun c hc => ?_
  · rw [h.head_eq]
  · rw [hc.field]
    rfl

theorem clause_erased : Option.Rel (Erased IsComment) (Plan.clause n) (Plan.clause m) := by
  refine h.thinned.find? (fun n m h => ?_) fun c hc => ?_
  · rw [h.named_eq, h.kind_eq]
  · simp [hc.kind_ne "import_clause" rfl]

theorem stringValue_erased (src : List UInt8) : stringValue src m = stringValue src n := by
  have hescapes : List.Forall₂ (Erased IsComment) (n.children.filter Node.isEscape)
      (m.children.filter Node.isEscape) := by
    refine h.thinned.filter (fun n m h => ?_) fun c hc => ?_
    · rw [Node.isEscape, Node.isEscape, h.named_eq, h.kind_eq]
    · simp [Node.isEscape, hc.kind_ne "escape_sequence" rfl]
  have hspans : (m.children.filter Node.isEscape).map Node.span =
      (n.children.filter Node.isEscape).map Node.span := by
    rw [← List.forall₂_eq_eq_eq, List.forall₂_map_left_iff, List.forall₂_map_right_iff]
    exact hescapes.flip.imp fun _ _ h => h.span_eq
  have hstart : m.start = n.start := congrArg Prod.fst h.span_eq
  have hstop : m.stop = n.stop := congrArg Prod.snd h.span_eq
  rw [stringValue_eq_joined, stringValue_eq_joined, Node.slices, Node.slices, hspans, hstart, hstop]

theorem parameters_erased :
    List.Forall₂ (Erased IsComment) (Plan.parameters n) (Plan.parameters m) := by
  unfold Plan.parameters
  rcases rel_inv (childByField_erased h "parameters") with ⟨hn, hm⟩ | ⟨a, b, hn, hm, hlist⟩
  · rw [hn, hm]
    exact .nil
  · rw [hn, hm]
    exact kept_erased hlist.thinned

theorem allParameters_erased :
    List.Forall₂ (Erased IsComment) (Plan.allParameters n) (Plan.allParameters m) := by
  unfold Plan.allParameters
  rw [isSome_of_rel (childByField_erased h "parameters")]
  split
  · exact parameters_erased h
  · exact toList_of_rel (childByField_erased h "parameter")

theorem arguments_erased :
    List.Forall₂ (Erased IsComment) (Plan.arguments n) (Plan.arguments m) := by
  unfold Plan.arguments
  rcases rel_inv (childByField_erased h "arguments") with ⟨hn, hm⟩ | ⟨a, b, hn, hm, hlist⟩
  · rw [hn, hm]
    exact .nil
  · rw [hn, hm]
    dsimp only
    rw [hlist.kind_eq]
    split
    · exact kept_erased hlist.thinned
    · exact .cons hlist .nil

theorem fieldSpans_erased (fields : List String) :
    fieldSpans fields m.children = fieldSpans fields n.children := by
  unfold fieldSpans
  refine List.filterMap_congr fun field _ => ?_
  have hfield := childByField_erased h field
  rw [Node.childByField, Node.childByField] at hfield
  rcases rel_inv hfield with ⟨hn, hm⟩ | ⟨a, b, hn, hm, hr⟩
  · rw [hn, hm]
  · rw [hn, hm]
    exact congrArg some hr.span_eq

theorem keys_erased : List.Forall₂ (Erased IsComment) (Plan.keys n) (Plan.keys m) := by
  unfold Plan.keys
  rw [fieldSpans_erased h]
  refine List.rel_filter (fun a b hr => ?_) (kept_erased h.thinned)
  have hspan : (b.start, b.stop) = (a.start, a.stop) := hr.span_eq
  dsimp only
  rw [hspan]

end Parts

/-! ## Plans -/

/-- Plans that build the same, of what is left of the nodes asked for. -/
structure Plan.Alike (p q : Plan) : Prop where
  inputs : List.Forall₂ (Erased IsComment) p.inputs q.inputs
  build : q.build = p.build

/-- The same fault, or plans that are alike. -/
inductive Plan.Agree : Except Escape.Fault Plan → Except Escape.Fault Plan → Prop
  | error (f : Escape.Fault) : Agree (.error f) (.error f)
  | ok {p q : Plan} (h : p.Alike q) : Agree (.ok p) (.ok q)

theorem Plan.Agree.ite {x x' y y' : Except Escape.Fault Plan} {c : Prop} [Decidable c]
    (hx : Agree x x') (hy : Agree y y') : Agree (if c then x else y) (if c then x' else y') := by
  split
  · exact hx
  · exact hy

section Alike

variable {n m : Node} (h : Erased IsComment n m)

include h

theorem plain_alike : (Plan.plain n).Alike (Plan.plain m) where
  inputs := kept_erased h.thinned
  build := by rw [Plan.plain, Plan.plain, h.kind_eq]

theorem importDecl_alike : (Plan.importDecl n).Alike (Plan.importDecl m) where
  inputs := by
    rw [inputs_importDecl, inputs_importDecl]
    exact List.rel_append (toList_of_rel (childByField_erased h "source"))
      (toList_of_rel (clause_erased h))
  build := by
    have hsource := isSome_of_rel (childByField_erased h "source")
    have hclause := isSome_of_rel (clause_erased h)
    funext trees
    change Ast.Node.importDecl (if (m.childByField "source").isSome then _ else _)
      (if (Plan.clause m).isSome then _ else _) = _
    rw [hsource, hclause]
    rfl

theorem call_alike : (Plan.call n).Alike (Plan.call m) := by
  unfold Plan.call
  rcases rel_inv (childByField_erased h "function") with ⟨hn, hm⟩ | ⟨a, b, hn, hm, hcallee⟩
  · rw [hn, hm]
    exact plain_alike h
  · rw [hn, hm]
    exact ⟨.cons hcallee (arguments_erased h), rfl⟩

theorem function_alike : (Plan.function n).Alike (Plan.function m) where
  inputs := by
    rw [inputs_function, inputs_function]
    exact List.rel_append (List.rel_append (toList_of_rel (childByField_erased h "name"))
      (allParameters_erased h)) (toList_of_rel (childByField_erased h "body"))
  build := by
    have hname := childByField_erased h "name"
    funext trees
    change Ast.Node.function m.kind
      (if (m.childByField "name").isSome then trees.headD .absent else .absent)
      (.items ((trees.drop (m.childByField "name").toList.length).take (Plan.allParameters m).length))
      (((trees.drop (m.childByField "name").toList.length).drop
        (Plan.allParameters m).length).headD .absent) = _
    -- The tree takes its parts from the results by how many nodes each part asked for.
    rw [h.kind_eq, isSome_of_rel hname, ← (toList_of_rel hname).length_eq,
      ← (allParameters_erased h).length_eq]
    rfl

theorem method_alike : (Plan.method n).Alike (Plan.method m) where
  inputs := by
    rw [inputs_method, inputs_method]
    exact List.rel_append (List.rel_append (keys_erased h) (parameters_erased h))
      (toList_of_rel (childByField_erased h "body"))
  build := by
    funext trees
    change Ast.Node.plain m.kind (.items (trees.take (Plan.keys m).length ++
      [.function "function_expression" .absent
        (.items ((trees.drop (Plan.keys m).length).take (Plan.parameters m).length))
        (((trees.drop (Plan.keys m).length).drop (Plan.parameters m).length).headD .absent)])) = _
    rw [h.kind_eq, ← (keys_erased h).length_eq, ← (parameters_erased h).length_eq]
    rfl

/-- A node has a plan before just if it has one after, and the plans are alike. -/
theorem plan_erased (src : List UInt8) : Plan.Agree (plan src n) (plan src m) := by
  have hstart : m.start = n.start := congrArg Prod.fst h.span_eq
  have hstop : m.stop = n.stop := congrArg Prod.snd h.span_eq
  unfold plan
  rw [h.kind_eq, hstart, hstop, stringValue_erased h src]
  refine .ite (.ok ⟨kept_erased h.thinned, rfl⟩) (.ite ?_ ?_)
  · cases stringValue src n with
    | error f => exact .error f
    | ok value => exact .ok ⟨.nil, rfl⟩
  refine .ite (.ok ⟨.nil, rfl⟩) (.ite (.ok ⟨.nil, rfl⟩) ?_)
  exact .ite (.ok (importDecl_alike h)) (.ite (.ok (call_alike h))
    (.ite (.ok (function_alike h)) (.ite (.ok (method_alike h)) (.ok (plain_alike h)))))

end Alike

/-! ## Lowering -/

/-- What is lowered does not change, nor the fault that lowering ends in. -/
theorem lower_erased (src : List UInt8) {n m : Node} (h : Erased IsComment n m) :
    lower src m = lower src n := by
  -- by weight and not by `Erased.induct`: a plan asks for parameters, which are two levels down
  induction hw : n.weight using Nat.strongRecOn generalizing n m with
  | _ w ih =>
    have hagree := plan_erased h src
    rw [lower_eq, lower_eq]
    generalize hm : plan src m = after at hagree ⊢
    cases hn : plan src n with
    | error f =>
      rw [hn] at hagree
      cases hagree
      rfl
    | ok p =>
      rw [hn] at hagree
      cases hagree with
      | @ok _ q halike =>
        have hlt := weights_inputs_lt hn
        have hbelow : ∀ a ∈ p.inputs, ∀ b, Erased IsComment a b → lower src a = lower src b := by
          intro a ha b hab
          have hle := Node.weight_le_of_mem ha
          exact (ih a.weight (by omega) hab rfl).symm
        have hinputs : p.inputs.mapM (lower src) = q.inputs.mapM (lower src) :=
          mapM_eq_of_forall₂ (((List.forall₂_and_left _ _).2 ⟨hbelow, halike.inputs⟩).imp
            fun a b hab => hab.1 b hab.2)
        change carryOut src q = carryOut src p
        rw [carryOut, carryOut, hinputs, halike.build]

/-! ## The goals -/

section Goals

variable {n m : Node} {ns ms : List Node}

theorem violation_comment {goal : Goal} {inside : Bool} {c : Node} (hc : IsComment c) :
    violation goal inside c = none := by
  have hforbids : goal.forbids inside c.kind = false := by
    cases goal <;> simp [Goal.forbids, hc.kind_ne "return_statement" rfl,
      hc.kind_ne "import_statement" rfl, hc.kind_ne "export_statement" rfl]
  rw [violation_step, if_neg (by simp [hforbids]), Node.namedChildren, hc.leaf]
  rfl

theorem violationIn_erased {goal : Goal} {inside : Bool}
    (h : Thinned IsComment (fun n m => Erased IsComment n m ∧
      ∀ inside, Option.Rel (Erased IsComment) (violation goal inside n) (violation goal inside m))
      ns ms) :
    Option.Rel (Erased IsComment) (violationIn goal inside ns) (violationIn goal inside ms) := by
  induction h with
  | nil => exact .none
  | keep hr _ ih =>
    obtain ⟨herased, hviolation⟩ := hr
    rw [violationIn, violationIn, herased.named_eq]
    split
    · rcases rel_inv (hviolation inside) with ⟨hn, hm⟩ | ⟨a, b, hn, hm, hab⟩
      · rw [hn, hm]
        exact ih
      · rw [hn, hm]
        exact .some hab
    · exact ih
  | drop hn _ ih =>
    rw [violationIn, violation_comment hn]
    split <;> exact ih

/-- The node that a goal reports is left, and it is still the one. -/
theorem violation_erased {goal : Goal} (h : Erased IsComment n m) (inside : Bool) :
    Option.Rel (Erased IsComment) (violation goal inside n) (violation goal inside m) := by
  refine h.induct (motive := fun n m => ∀ inside, Option.Rel (Erased IsComment)
    (violation goal inside n) (violation goal inside m)) (fun hs inside => ?_) inside
  rw [violation, violation]
  split
  · exact .some (.mk (hs.imp (fun _ h => h) fun _ _ h => h.1))
  · exact violationIn_erased hs

end Goals

/-! ## Errors

A comment may be flagged as well. Where the erased ones are not, the first error stays what it was.
-/

section Errors

variable {P : Node → Prop} {n m : Node} {ns ms : List Node}

theorem firstError_of_no_error (h : n.hasError = false) : n.firstError = none := by
  have herr : n.isError = false := by
    obtain ⟨d, cs⟩ := n
    rw [Node.hasError] at h
    simp only [Bool.or_eq_false_iff] at h
    simp [Node.isError, Node.kind, Node.head, h]
  rw [firstError_eq, herr, h]
  rfl

variable (hclean : ∀ c, P c → c.hasError = false)

include hclean

theorem anyError_erased
    (h : Thinned P (fun n m => Erased P n m ∧ m.hasError = n.hasError) ns ms) :
    Node.anyError ms = Node.anyError ns := by
  induction h with
  | nil => rfl
  | keep hr _ ih => rw [Node.anyError, Node.anyError, hr.2, ih]
  | drop hn _ ih =>
    rw [Node.anyError, hclean _ hn, ih]
    rfl

theorem hasError_erased (h : Erased P n m) : m.hasError = n.hasError := by
  refine h.induct (motive := fun n m => m.hasError = n.hasError) fun hs => ?_
  rw [Node.hasError, Node.hasError, anyError_erased hclean hs]

theorem firstErrorIn_erased
    (h : Thinned P (fun n m => Erased P n m ∧ Option.Rel (Erased P) n.firstError m.firstError)
      ns ms) :
    Option.Rel (Erased P) (Node.firstErrorIn ns) (Node.firstErrorIn ms) := by
  induction h with
  | nil => exact .none
  | keep hr _ ih =>
    rw [Node.firstErrorIn, Node.firstErrorIn]
    rcases rel_inv hr.2 with ⟨hn, hm⟩ | ⟨a, b, hn, hm, hab⟩
    · rw [hn, hm]
      exact ih
    · rw [hn, hm]
      exact .some hab
  | drop hn _ ih =>
    rw [Node.firstErrorIn, firstError_of_no_error (hclean _ hn)]
    exact ih

theorem firstError_erased (h : Erased P n m) :
    Option.Rel (Erased P) n.firstError m.firstError := by
  refine h.induct (motive := fun n m => Option.Rel (Erased P) n.firstError m.firstError)
    fun {d cs ds} hs => ?_
  have herased : Erased P (.mk d cs) (.mk d ds) := .mk (hs.imp (fun _ h => h) fun _ _ h => h.1)
  rw [Node.firstError, Node.firstError, hasError_erased hclean herased]
  split
  · exact .some herased
  split
  · exact firstErrorIn_erased hclean hs
  · exact .none

end Errors

section Refusals

variable {n m : Node}

/-- In a tree without errors no comment is one. -/
theorem clean_of_no_error (h : Erased IsComment n m) (hn : n.hasError = false) :
    Erased IsCleanComment n m := by
  refine h.induct (motive := fun n m => n.hasError = false → Erased IsCleanComment n m)
    (fun {d cs ds} hs hn => ?_) hn
  rw [Node.hasError, Bool.or_eq_false_iff] at hn
  have hbelow : Node.anyError cs = false := hn.2
  suffices Thinned IsCleanComment (Erased IsCleanComment) cs ds from .mk this
  clear hn
  induction hs with
  | nil => exact .nil
  | keep hr _ ih =>
    rw [Node.anyError, Bool.or_eq_false_iff] at hbelow
    exact .keep (hr.2 hbelow.1) (ih hbelow.2)
  | drop hc _ ih =>
    rw [Node.anyError, Bool.or_eq_false_iff] at hbelow
    exact .drop ⟨hc, hbelow.1⟩ (ih hbelow.2)

theorem row_of_rel {P : Node → Prop} {o o' : Option Node} (h : Option.Rel (Erased P) o o') :
    o'.map Node.row = o.map Node.row := by
  cases h with
  | none => rfl
  | some hr => exact congrArg (fun d : Head => some d.row) hr.head_eq

theorem refusal?_erased (goal : Goal) (h : Erased IsCleanComment n m) :
    goal.refusal? m = goal.refusal? n := by
  have herror := hasError_erased (fun _ hc => hc.clean) h
  cases hn : n.hasError with
  | true =>
    have hfirst := row_of_rel (firstError_erased (fun _ hc => hc.clean) h)
    rw [refusal?_of_error goal hn, refusal?_of_error goal (herror.trans hn), hfirst]
  | false =>
    have hcomment : Erased IsComment n m := h.mono fun _ hc => hc.toIsComment
    have hrow : (violation goal false m).map Node.row = (violation goal false n).map Node.row :=
      row_of_rel (violation_erased hcomment false)
    rw [refusal?_of_no_error goal hn, refusal?_of_no_error goal (herror.trans hn)]
    cases goal with
    | module =>
      have h := congrArg (Option.map Refusal.returnOutside) hrow
      rwa [Option.map_map, Option.map_map] at h
    | script =>
      have h := congrArg (Option.map Refusal.moduleOnly) hrow
      rwa [Option.map_map, Option.map_map] at h

end Refusals

/-! ## A tree without its comments -/

/-- Comments may go. What is left of a tree without some of its comments is lowered to the same tree,
or ends lowering in the same fault; each goal reports the same node, as far as that is left, or none as
before; so the heavy imports are the same. Where the comments that are gone were no errors, as in a tree
without any, the refusals are the same too, and so is all that parsing gives and logs. -/
theorem comments_leave_no_trace {root rest : Node} (h : Erased IsComment root rest)
    (src : List UInt8) :
    lowerDeep src rest = lowerDeep src root ∧
    (∀ goal, Option.Rel (Erased IsComment) (searchForbidden goal [{ node := root }])
      (searchForbidden goal [{ node := rest }])) ∧
    (∀ room deps, (lowerDeep src rest).map (Import.classify room deps) =
      (lowerDeep src root).map (Import.classify room deps)) ∧
    (root.hasError = false → Erased IsCleanComment root rest) ∧
    (Erased IsCleanComment root rest →
      (∀ goal : Goal, goal.refusal? rest = goal.refusal? root) ∧
      (∀ goal, Parse.lowerFor goal src rest = Parse.lowerFor goal src root) ∧
      Parse.lowerEither src rest = Parse.lowerEither src root) := by
  have hlower : lowerDeep src rest = lowerDeep src root := by
    rw [lowerDeep_eq_lower, lowerDeep_eq_lower, lower_erased src h]
  refine ⟨hlower, fun goal => ?_, fun room deps => by rw [hlower], clean_of_no_error h, fun hclean => ?_⟩
  · rw [searchForbidden_root, searchForbidden_root]
    exact violation_erased h false
  · have hrefusal := fun goal => refusal?_erased goal hclean
    have hfor : ∀ goal, Parse.lowerFor goal src rest = Parse.lowerFor goal src root := by
      intro goal
      rw [Parse.lowerFor, Parse.lowerFor, hrefusal, hlower]
    refine ⟨hrefusal, hfor, ?_⟩
    rw [Parse.lowerEither, Parse.lowerEither, hfor, hfor]

/-! ### A call with a comment before its argument -/

/-- A first line, a call and a `return`, with given comments before the call and in its arguments. -/
def requireProgram (before inside : List Node) : Node :=
  .mk { kind := "program", start := 0, stop := 26 }
    (before ++
      [.mk { kind := "expression_statement", start := 3, stop := 19, row := 1 }
        [.mk { kind := "call_expression", start := 3, stop := 19, row := 1 }
          [.mk { kind := "identifier", start := 3, stop := 10, row := 1, field := "function" } [],
           .mk { kind := "arguments", start := 10, stop := 19, row := 1, field := "arguments" }
            (.mk { kind := "(", start := 10, stop := 11, row := 1, named := false } [] ::
              inside ++
              [.mk { kind := "string", start := 15, stop := 18, row := 1 } [],
               .mk { kind := ")", start := 18, stop := 19, row := 1, named := false } []])]],
       .mk { kind := "return_statement", start := 20, stop := 26, row := 2 } []])

def requireSource : List UInt8 :=
  Utf8.encode "#!\nrequire(/**/'x')\nreturn".toList

def hashBang : Node :=
  .mk { kind := "hash_bang_line", start := 0, stop := 2 } []

def blockComment : Node :=
  .mk { kind := "comment", start := 11, stop := 15, row := 1 } []

theorem comments_leave_no_trace_in_require :
    let root := requireProgram [hashBang] [blockComment]
    lowerDeep requireSource root =
        .ok (.program (.items
          [.plain "expression_statement" (.items
            [.call (.ident (Text.ofString "require")) (.items [.string (Text.ofString "x")])]),
           .plain "return_statement" (.items [])])) ∧
      Goal.module.refusal? root = some (.returnOutside 2) ∧ Goal.script.refusal? root = none := by
  intro root
  have herased : Erased IsCleanComment root (requireProgram [] []) := by
    have hsame : ∀ ns, Thinned IsCleanComment (Erased IsCleanComment) ns ns :=
      fun ns => .refl fun n _ => .refl n
    exact .mk (.drop ⟨⟨rfl, rfl, rfl⟩, rfl⟩ (.keep (.mk (.keep (.mk (.keep (.refl _) (.keep
      (.mk (.keep (.refl _) (.drop ⟨⟨rfl, rfl, rfl⟩, rfl⟩ (hsame _)))) .nil))) .nil)) (hsame _)))
  obtain ⟨hlower, -, -, -, hrest⟩ := comments_leave_no_trace (herased.mono fun _ h => h.toIsComment)
    requireSource
  obtain ⟨hrefusal, -, -⟩ := hrest herased
  refine ⟨?_, ?_, ?_⟩
  · rw [← hlower, lowerDeep_eq_lower]
    rfl
  · rw [← hrefusal, refusal?_of_no_error _ (by rfl)]
    rfl
  · rw [← hrefusal, refusal?_of_no_error _ (by rfl)]
    rfl

end LazyLint.Cst
