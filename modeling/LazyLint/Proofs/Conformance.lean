import Mathlib.Logic.Relation
import LazyLint.Ast.Dump
import LazyLint.Proofs.March

/-!
# Trees that conform to the schema

A traversal reads from a node the fields that the schema lists for its kind, the label of a dump goes by
the variant of the node, and a scope is opened by the kind again. A node *conforms* where these agree:
the listed fields are those that its variant has, they hold what they should, and its kind is one of a
function just if its variant is.

A tree of conforming nodes (`Conforming`) meets none of the faults of a tree, neither in a walk
(`Conforming.sound`) nor in a dump (`Conforming.draw_error`), and the nodes of it that open a scope are
those that a dump marks so (`Conforms.boundary_iff`). Whatever a node holds counts as part of the tree,
also in a field that no traversal would look into.
-/

namespace LazyLint.Ast

/-! ## What a node holds -/

/-- A node that another one holds in some field. -/
inductive Node.Holds (n m : Node) : Prop
  | one {field : String} (h : n.held field = m) (hm : m.isNode = true)
  | many {field : String} {ms : List Node} (h : n.held field = .items ms) (hmem : m ∈ ms)
    (hm : m.isNode = true)

/-- A node anywhere in a tree. -/
def Node.Reaches : Node → Node → Prop :=
  Relation.ReflTransGen Node.Holds

/-- The values in a field. -/
def Node.each : Node → List Node
  | .items values => values
  | v => [v]

/-- Everything that a node holds, in whatever field. -/
def Node.content : Node → List Node
  | .program body => body.each
  | .importDecl source clause => source.each ++ clause.each
  | .call callee args => callee.each ++ args.each
  | .function _ name params body => name.each ++ (params.each ++ body.each)
  | .plain _ children => children.each
  | .string _ | .ident _ | .importOp | .stray .. | .items _ | .atom .. => []

/-- What a field may hold: a node or nothing, or nodes. -/
def Arity.Admits : Arity → Node → Prop
  | .single, v => v.isNode = true ∨ v = .absent
  | .sequence, v => ∃ ms, v = .items ms ∧ ∀ m ∈ ms, m.isNode = true

section Holds

variable {n m : Node} {field : String} {arity : Arity}

theorem Node.Holds.isNode (h : n.Holds m) : m.isNode = true := by
  cases h with
  | one _ hm => exact hm
  | many _ _ hm => exact hm

theorem mem_each_of_isNode (h : m.isNode = true) : m ∈ m.each := by
  cases m with
  | items => cases h
  | _ => exact List.mem_singleton_self _

theorem mem_content_of_held (hne : n.held field ≠ .absent) (hm : m ∈ (n.held field).each) :
    m ∈ n.content := by
  revert hne hm
  unfold Node.held
  split <;> intro hne hm <;> first | exact absurd rfl hne | simp [Node.content, hm]

theorem Node.Holds.mem_content (h : n.Holds m) : m ∈ n.content := by
  cases h with
  | @one field h hm =>
    subst h
    refine @mem_content_of_held _ _ field ?_ (mem_each_of_isNode hm)
    intro habsent
    rw [habsent] at hm
    cases hm
  | @many field ms h hmem _ => exact @mem_content_of_held _ _ field (by simp [h]) (h ▸ hmem)

/-- What a traversal finds in a field, the node holds. -/
theorem holds_of_mem_inField {ms : List Node} (h : n.inField field arity = .ok ms) (hm : m ∈ ms) :
    n.Holds m := by
  obtain ⟨hnode, hheld | ⟨values, hheld, hmem⟩⟩ := Node.held_of_mem_inField h hm
  · exact .one hheld hnode
  · exact .many hheld hmem hnode

/-- A field that holds what it may can be gone through. -/
theorem inField_of_admits (h : arity.Admits (n.held field)) :
    ∃ ms, n.inField field arity = .ok ms := by
  cases arity with
  | single => exact ⟨_, rfl⟩
  | sequence =>
    obtain ⟨ms, hms, -⟩ := h
    exact ⟨_, by rw [Node.inField, hms]⟩

theorem inFields_of_admits {fields : List (String × Arity)}
    (h : ∀ field arity, (field, arity) ∈ fields → arity.Admits (n.held field)) :
    ∃ ms, n.inFields fields = .ok ms := by
  induction fields with
  | nil => exact ⟨[], rfl⟩
  | cons fa fields ih =>
    obtain ⟨field, arity⟩ := fa
    obtain ⟨first, hf⟩ := inField_of_admits (h field arity (List.mem_cons_self ..))
    obtain ⟨rest, hr⟩ := ih fun f a hfa => h f a (List.mem_cons_of_mem _ hfa)
    exact ⟨first ++ rest, Node.inFields_cons_eq_ok_iff.2 ⟨first, rest, hf, hr, rfl⟩⟩

end Holds

/-! ## Conforming nodes -/

/-- The fields of a variant in the order of the schema. -/
def Node.owned : Node → List (String × Arity)
  | .program _ => [("body", .sequence)]
  | .importDecl .. => [("clause", .single), ("source", .single)]
  | .call .. => [("callee", .single), ("arguments", .sequence)]
  | .function .. => [("name", .single), ("parameters", .sequence), ("body", .single)]
  | .plain .. => [("children", .sequence)]
  | .string _ | .ident _ | .importOp | .stray .. | .items _ | .atom .. => []

/-- The schema of the node's kind lists the fields that the node has. -/
def Node.FitsSchema (n : Node) : Prop :=
  ∃ kind fields, n.kind? = some kind ∧ schema kind = some fields ∧
    ∀ field arity, (field, arity) ∈ fields ↔ (field, arity) ∈ n.owned

/-- A node that the traversals take for what it is. -/
structure Node.Conforms (n : Node) : Prop where
  fields : (∃ kind children, n = .plain kind children) ∨ n.FitsSchema
  values : ∀ field arity, (field, arity) ∈ n.owned → arity.Admits (n.held field)
  function : (∃ kind name params body, n = .function kind name params body) ↔
    ∃ kind ∈ functionKinds, n.kind? = some kind

theorem Node.fitsSchema_of_owned {n : Node} {kind : String} (hk : n.kind? = some kind)
    (hs : schema kind = some n.owned) : n.FitsSchema :=
  ⟨kind, n.owned, hk, hs, fun _ _ => Iff.rfl⟩

theorem schema_function {kind : String} (h : kind ∈ functionKinds) :
    schema kind = some [("name", .single), ("parameters", .sequence), ("body", .single)] := by
  simp only [functionKinds, List.mem_cons, List.not_mem_nil, or_false] at h
  rcases h with rfl | rfl | rfl | rfl | rfl | rfl <;> rfl

theorem conforms_function {kind : String} (h : kind ∈ functionKinds) {name body : Node}
    {params : List Node} (hname : Arity.single.Admits name)
    (hparams : ∀ p ∈ params, p.isNode = true) (hbody : Arity.single.Admits body) :
    (Node.function kind name (.items params) body).Conforms where
  fields := .inr (Node.fitsSchema_of_owned rfl (schema_function h))
  values field arity hmem := by
    simp only [Node.owned, List.mem_cons, Prod.mk.injEq, List.not_mem_nil, or_false] at hmem
    rcases hmem with ⟨rfl, rfl⟩ | ⟨rfl, rfl⟩ | ⟨rfl, rfl⟩
    · exact hname
    · exact ⟨params, rfl, hparams⟩
    · exact hbody
  function := ⟨fun _ => ⟨kind, h, rfl⟩, fun _ => ⟨kind, name, .items params, body, rfl⟩⟩

theorem conforms_of_kind {n : Node} {kind : String} (hk : n.kind? = some kind)
    (hkind : kind ∉ functionKinds) (hn : ∀ k name params body, n ≠ .function k name params body)
    (hf : (∃ k children, n = .plain k children) ∨ n.FitsSchema)
    (hvalues : ∀ field arity, (field, arity) ∈ n.owned → arity.Admits (n.held field)) :
    n.Conforms where
  fields := hf
  values := hvalues
  function := by
    constructor
    · rintro ⟨k, name, params, body, rfl⟩
      exact absurd rfl (hn k name params body)
    · rintro ⟨k, hmem, hk'⟩
      rw [hk] at hk'
      cases hk'
      exact absurd hmem hkind

theorem conforms_plain {kind : String} (h : kind ∉ functionKinds) {children : List Node}
    (hchildren : ∀ c ∈ children, c.isNode = true) :
    (Node.plain kind (.items children)).Conforms := by
  refine conforms_of_kind rfl h (by simp) (.inl ⟨kind, _, rfl⟩) fun field arity hmem => ?_
  obtain ⟨rfl, rfl⟩ := Prod.mk.inj (List.mem_singleton.1 hmem)
  exact ⟨children, rfl, hchildren⟩

/-- The variants that stand for one kind conform if their fields hold what they may. -/
theorem conforms_of_owned {n : Node} {kind : String} (hk : n.kind? = some kind)
    (hs : schema kind = some n.owned) (hkind : kind ∉ functionKinds)
    (hn : ∀ k name params body, n ≠ .function k name params body)
    (hvalues : ∀ field arity, (field, arity) ∈ n.owned → arity.Admits (n.held field)) : n.Conforms :=
  conforms_of_kind hk hkind hn (.inr (Node.fitsSchema_of_owned hk hs)) hvalues

/-! ## What conforming gives -/

section Conforms

variable {n : Node}

theorem Node.Conforms.exists_kind (h : n.Conforms) : ∃ kind, n.kind? = some kind := by
  rcases h.fields with ⟨kind, children, rfl⟩ | ⟨kind, _, hk, _⟩
  · exact ⟨kind, rfl⟩
  · exact ⟨kind, hk⟩

theorem Node.fields_of_schema {kind : String} {fields : List (String × Arity)}
    (hp : ∀ k children, n ≠ .plain k children) (hk : n.kind? = some kind)
    (hs : schema kind = some fields) : n.fields = .ok fields := by
  unfold Node.fields
  split
  · exact absurd rfl (hp _ _)
  · rw [hk]
    dsimp only
    rw [hs]

/-- The fields of a conforming node are those of its variant. -/
theorem Node.Conforms.exists_fields (h : n.Conforms) : ∃ fields, n.fields = .ok fields ∧
    ∀ field arity, (field, arity) ∈ fields ↔ (field, arity) ∈ n.owned := by
  by_cases hp : ∃ kind children, n = .plain kind children
  · obtain ⟨kind, children, rfl⟩ := hp
    exact ⟨_, rfl, fun _ _ => Iff.rfl⟩
  · rcases h.fields with hplain | ⟨kind, fields, hk, hs, howned⟩
    · exact absurd hplain hp
    · refine ⟨fields, Node.fields_of_schema ?_ hk hs, howned⟩
      exact fun k children hn => hp ⟨k, children, hn⟩

theorem Node.Conforms.exists_parts (h : n.Conforms) : ∃ ms, n.parts? = .ok ms := by
  obtain ⟨fields, hf, howned⟩ := h.exists_fields
  obtain ⟨ms, hms⟩ := inFields_of_admits fun field arity hmem =>
    h.values field arity ((howned field arity).1 hmem)
  exact ⟨ms, Node.parts?_eq_ok_iff.2 ⟨fields, hf, hms⟩⟩

/-- Of the nodes that have a kind, only a call without a list of arguments may have no label. -/
theorem Node.exists_label {kind : String} (hk : n.kind? = some kind)
    (hn : ∀ callee args, n = .call callee args → ∃ values, args = .items values) (limit : Int) :
    ∃ t, n.label limit = .ok t := by
  cases n with
  | call callee args =>
    obtain ⟨values, rfl⟩ := hn callee args rfl
    exact ⟨_, rfl⟩
  | stray type k =>
    cases hk
    exact ⟨_, rfl⟩
  | items | atom => cases hk
  | _ => exact ⟨_, rfl⟩

/-- A conforming node has a label: a call has its arguments. -/
theorem Node.Conforms.exists_label (h : n.Conforms) (limit : Int) : ∃ t, n.label limit = .ok t := by
  obtain ⟨kind, hk⟩ := h.exists_kind
  refine Node.exists_label hk ?_ limit
  rintro callee args rfl
  obtain ⟨values, hvalues, -⟩ := h.values "arguments" .sequence (by simp [Node.owned])
  exact ⟨values, hvalues⟩

theorem label_call_ne (count : Nat) :
    "call_expression (" ++ Text.ofNat count ++ " args)" ≠
      Text.ofString "call_expression" ++ " (scope boundary)" := by
  intro h
  -- The number of arguments has any length, so the labels are compared from their ends.
  have hsplit : Text.ofString "call_expression" ++ Text.ofString " (scope boundary)" =
      Text.ofString "call_expression (scope bou" ++ Text.ofString "ndary)" := by decide +kernel
  have hlength : (Text.ofString " args)").length = (Text.ofString "ndary)").length := by
    decide +kernel
  have hend : Text.ofString " args)" ≠ Text.ofString "ndary)" := by decide +kernel
  exact hend (List.append_inj_right' (h.trans hsplit) hlength)

/-- The mark of a scope in a dump. A leaf shows its own text, which may happen to be the mark. -/
theorem Node.Conforms.boundary_iff (h : n.Conforms) {kind : String} (hk : n.kind? = some kind)
    (limit : Int) : kind ∈ functionKinds ↔
      n.text? = none ∧ n.label limit = .ok (Text.ofString kind ++ " (scope boundary)") := by
  constructor
  · intro hmem
    obtain ⟨k, name, params, body, rfl⟩ := h.function.2 ⟨kind, hmem, hk⟩
    cases hk
    exact ⟨rfl, rfl⟩
  · rintro ⟨htext, hlabel⟩
    have hbare : n.label limit ≠ .ok (Text.ofString kind) := by
      intro hkind
      rw [hkind] at hlabel
      exact absurd (List.self_eq_append_right.1 (Except.ok.inj hlabel)) (by decide)
    cases n with
    | function k name params body =>
      obtain ⟨k', hmem, hk'⟩ := h.function.1 ⟨k, name, params, body, rfl⟩
      cases hk
      cases hk'
      exact hmem
    | string v => cases htext
    | ident v => cases htext
    | call callee args =>
      obtain ⟨values, rfl, -⟩ : ∃ values, args = .items values ∧ _ :=
        h.values "arguments" .sequence (by simp [Node.owned])
      cases hk
      exact absurd (Except.ok.inj hlabel) (label_call_ne values.length)
    | items | atom => cases hk
    | _ =>
      -- The other variants are labelled with their kind alone.
      cases hk
      exact absurd rfl hbare

end Conforms

/-! ## Conforming trees -/

/-- Every node of the tree conforms. -/
def Node.Conforming (n : Node) : Prop :=
  ∀ m, n.Reaches m → m.Conforms

section Conforming

variable {n : Node}

theorem Node.Conforming.conforms (h : n.Conforming) : n.Conforms :=
  h n .refl

theorem Node.Conforming.held (h : n.Conforming) {m : Node} (hm : n.Holds m) : m.Conforming :=
  fun k hk => h k (.head hm hk)

theorem conforming_of_content (hn : n.Conforms)
    (hc : ∀ c ∈ n.content, c.isNode = true → c.Conforming) : n.Conforming := by
  intro m hm
  rcases Relation.ReflTransGen.cases_head hm with rfl | ⟨c, hholds, hreach⟩
  · exact hn
  · exact hc c hholds.mem_content hholds.isNode m hreach

theorem Node.Conforming.part (h : n.Conforming) {m : Node} (hm : m ∈ n.parts) : m.Conforming := by
  obtain ⟨_, _, _, _, -, -, hfound, hm⟩ := Node.mem_parts_iff.1 hm
  exact h.held (holds_of_mem_inField hfound hm)

theorem Node.Conforming.path (h : n.Conforming) {m : Node} {above : List Node}
    (hm : Path n above m) : m.Conforming := by
  induction hm with
  | here n => exact h
  | step hc _ ih => exact ih (h.part hc)

theorem Node.Conforming.sound (h : n.Conforming) : n.Sound := by
  intro p hp
  have hnode := (h.path (mem_visits_iff.1 hp)).conforms
  exact ⟨hnode.exists_kind, hnode.exists_parts⟩

end Conforming

/-! ## Dumps -/

section Draw

variable {d : Drawn} {f : Fault}

/-- Drawing nodes one after another fails as one of the drawings does. -/
theorem drawList_error {go : Node → Drawn → Except Fault Drawn} {ns : List Node}
    (h : drawList go ns d = .error f) : ∃ n ∈ ns, ∃ d, go n d = .error f := by
  induction ns generalizing d with
  | nil => cases h
  | cons n ns ih =>
    rw [drawList] at h
    cases hgo : go n d with
    | error e =>
      rw [hgo] at h
      cases h
      exact ⟨n, List.mem_cons_self .., d, hgo⟩
    | ok d' =>
      rw [hgo] at h
      obtain ⟨m, hm, d, hd⟩ := ih h
      exact ⟨m, List.mem_cons_of_mem _ hm, d, hd⟩

theorem drawFields_error {go : String → Node → Drawn → Except Fault Drawn} {n : Node}
    {fields : List (String × Arity)} {ms : List Node} (hread : n.inFields fields = .ok ms)
    (h : drawFields go n fields d = .error f) : ∃ field, ∃ m ∈ ms, ∃ d, go field m d = .error f := by
  induction fields generalizing ms d with
  | nil => cases h
  | cons fa fields ih =>
    obtain ⟨field, arity⟩ := fa
    obtain ⟨first, rest, hf, hr, rfl⟩ := Node.inFields_cons_eq_ok_iff.1 hread
    rw [drawFields, hf] at h
    cases hlist : drawList (go field) first d with
    | error e =>
      simp only [hlist, bind, Except.bind] at h
      cases h
      obtain ⟨m, hm, d, hd⟩ := drawList_error hlist
      exact ⟨field, m, List.mem_append_left _ hm, d, hd⟩
    | ok d' =>
      simp only [hlist, bind, Except.bind] at h
      obtain ⟨field, m, hm, d, hd⟩ := ih hr h
      exact ⟨field, m, List.mem_append_right _ hm, d, hd⟩

/-- A conforming tree can be drawn unless a node of it lies too far down. -/
theorem Node.Conforming.draw_error {opts : DumpOptions} {room level : Nat} {field : Option String}
    {n : Node} (hn : n.Conforming) (h : draw opts room level field n d = .error f) :
    f = .tooDeep ∧ ¬ n.FitsIn room := by
  induction room generalizing level field n d with
  | zero =>
    cases h
    exact ⟨rfl, n.not_fitsIn_zero⟩
  | succ room ih =>
    obtain ⟨label, hlabel⟩ := hn.conforms.exists_label opts.textLimit
    obtain ⟨kind, hk⟩ := hn.conforms.exists_kind
    obtain ⟨ms, hms⟩ := hn.conforms.exists_parts
    obtain ⟨fields, hf, hread⟩ := Node.parts?_eq_ok_iff.1 hms
    rw [draw] at h
    split at h
    · cases h
    · simp only [hlabel, hk, hf, bind, Except.bind] at h
      split at h
      · rename_i e hdraw
        cases h
        obtain ⟨field, m, hm, d, hd⟩ := drawFields_error hread hdraw
        have hpart : m ∈ n.parts := by rwa [Node.parts_eq hms]
        obtain ⟨rfl, hfar⟩ := ih (hn.part hpart) hd
        exact ⟨rfl, fun hfits => hfar (Node.fitsIn_succ_iff.1 hfits m hpart)⟩
      · cases h

theorem Node.Conforming.dump_error {room : Nat} {opts : DumpOptions} {n : Node} (hn : n.Conforming)
    (h : n.dump room opts = .error f) : f = .tooDeep ∧ ¬ n.FitsIn room := by
  rw [Node.dump] at h
  cases hdraw : draw opts room 0 none n {} with
  | error e =>
    rw [hdraw] at h
    cases h
    exact hn.draw_error hdraw
  | ok d =>
    rw [hdraw] at h
    cases h

end Draw

end LazyLint.Ast
