import LazyLint.Proofs.Conformance
import LazyLint.Proofs.Lowering

/-!
# Lowered trees fit the schema

The traversals go by the kind of a node, lowering goes by the kind of a concrete node, and the two
agree: a lowered node has the kind of the node it comes from (`lower_kind`), and every node of a
lowered tree conforms to the schema of its kind (`lower_conforming`), so that no traversal of it meets a
fault (`lower_sound`, `lowerDeep_conforms`).
-/

namespace LazyLint.Ast

/-! ## The parts of well-formed nodes -/

theorem parts?_program (body : List Node) :
    (Node.program (.items body)).parts? = .ok (body.filter Node.isNode) := by
  have h : (Node.program (.items body)).parts? = .ok (body.filter Node.isNode ++ []) := rfl
  rw [h, List.append_nil]

theorem parts?_string (v : Text) : (Node.string v).parts? = .ok [] := rfl

theorem parts?_ident (v : Text) : (Node.ident v).parts? = .ok [] := rfl

theorem parts?_importOp : Node.importOp.parts? = .ok [] := rfl

theorem parts?_importDecl (source clause : Node) :
    (Node.importDecl source clause).parts? = .ok ([clause, source].filter Node.isNode) := by
  have h : (Node.importDecl source clause).parts? =
      .ok ([clause].filter Node.isNode ++ ([source].filter Node.isNode ++ [])) := rfl
  rw [h, List.append_nil, ← List.filter_append, List.singleton_append]

theorem parts?_call (callee : Node) (args : List Node) :
    (Node.call callee (.items args)).parts? = .ok ((callee :: args).filter Node.isNode) := by
  have h : (Node.call callee (.items args)).parts? =
      .ok ([callee].filter Node.isNode ++ (args.filter Node.isNode ++ [])) := rfl
  rw [h, List.append_nil, ← List.filter_append, List.singleton_append]

theorem parts?_plain (kind : String) (children : List Node) :
    (Node.plain kind (.items children)).parts? = .ok (children.filter Node.isNode) := by
  have h : (Node.plain kind (.items children)).parts? = .ok (children.filter Node.isNode ++ []) := rfl
  rw [h, List.append_nil]

theorem parts?_function {kind : String} (hk : kind ∈ functionKinds) (name : Node)
    (params : List Node) (body : Node) :
    (Node.function kind name (.items params) body).parts? =
      .ok ((name :: (params ++ [body])).filter Node.isNode) := by
  have hf : (Node.function kind name (.items params) body).fields =
      .ok [("name", .single), ("parameters", .sequence), ("body", .single)] := by
    simp only [Node.fields, Node.kind?, schema_function hk]
  have h : (Node.function kind name (.items params) body).parts? =
      .ok ([name].filter Node.isNode ++
        (params.filter Node.isNode ++ ([body].filter Node.isNode ++ []))) := by
    rw [Node.parts?, hf]
    rfl
  rw [h, List.append_nil, ← List.filter_append, ← List.filter_append, List.singleton_append]

/-- An optional part is held as itself or as no node. -/
theorem filter_headD {ss : List Node} (hl : ss.length ≤ 1) (hn : ∀ s ∈ ss, s.isNode = true) :
    [ss.headD .absent].filter Node.isNode = ss := by
  match ss, hl with
  | [], _ => rfl
  | [s], _ => simp [hn s (List.mem_cons_self ..)]

theorem admits_headD {ss : List Node} (hn : ∀ s ∈ ss, s.isNode = true) :
    Arity.single.Admits (ss.headD .absent) := by
  cases ss with
  | nil => exact .inr rfl
  | cons s ss => exact .inl (hn s (List.mem_cons_self ..))

theorem each_of_admits {v : Node} (h : Arity.single.Admits v) : v.each = [v] := by
  cases v with
  | items values => rcases h with h | h <;> cases h
  | _ => rfl

end LazyLint.Ast

namespace LazyLint.Cst

open Ast (functionKinds)

/-! ## What lowering makes of a node -/

section Lowered

variable {src : List UInt8} {R : Node → Ast.Node → Prop} {n : Node} {t : Ast.Node}

theorem Lowered.kind (h : Lowered src R n t) : t.kind? = some n.kind := by
  cases h with
  | program hk _ => rw [hk]; rfl
  | string hk _ => rw [hk]; rfl
  | ident hk => rw [hk]; rfl
  | importOp hk => rw [hk]; rfl
  | importDecl hk _ _ => rw [hk]; rfl
  | call hk _ _ _ => rw [hk]; rfl
  | function _ _ _ _ => rfl
  | method _ _ _ _ => rfl
  | bareCall _ _ _ => rfl
  | plain _ _ _ => rfl

theorem lower_kind (h : lower src n = .ok t) : t.kind? = some n.kind :=
  lower_induction (motive := fun n t => t.kind? = some n.kind) (fun _ _ h => h.kind) h

theorem lower_isNode (h : lower src n = .ok t) : t.isNode = true :=
  Ast.isNode_of_kind (lower_kind h)

theorem length_toList_le {o : Option Node} {ss : List Ast.Node} (h : List.Forall₂ R o.toList ss) :
    ss.length ≤ 1 := by
  rw [← h.length_eq]
  cases o <;> simp

/-- The lowered trees of some nodes are nodes. -/
theorem isNode_of_forall₂ (hR : ∀ m s, R m s → lower src m = .ok s) {ms : List Node}
    {ss : List Ast.Node} (h : List.Forall₂ R ms ss) : ∀ s ∈ ss, s.isNode = true := by
  induction h with
  | nil => simp
  | cons hs _ ih =>
    intro s' hs'
    rcases List.mem_cons.1 hs' with rfl | hs'
    · exact lower_isNode (hR _ _ hs)
    · exact ih s' hs'

theorem filter_isNode_of_forall₂ (hR : ∀ m s, R m s → lower src m = .ok s) {ms : List Node}
    {ss : List Ast.Node} (h : List.Forall₂ R ms ss) : ss.filter Ast.Node.isNode = ss :=
  List.filter_eq_self.2 (isNode_of_forall₂ hR h)

theorem filter_headD_of_forall₂ (hR : ∀ m s, R m s → lower src m = .ok s) {o : Option Node}
    {ss : List Ast.Node} (h : List.Forall₂ R o.toList ss) :
    [ss.headD .absent].filter Ast.Node.isNode = ss :=
  Ast.filter_headD (length_toList_le h) (isNode_of_forall₂ hR h)

theorem parts_lowered_importDecl (hR : ∀ m s, R m s → lower src m = .ok s) {source clause : Option Node}
    {ss cs : List Ast.Node} (hs : List.Forall₂ R source.toList ss)
    (hc : List.Forall₂ R clause.toList cs) :
    (Ast.Node.importDecl (ss.headD .absent) (cs.headD .absent)).parts? = .ok (cs ++ ss) := by
  rw [Ast.parts?_importDecl, ← List.singleton_append, List.filter_append,
    filter_headD_of_forall₂ hR hc, filter_headD_of_forall₂ hR hs]

theorem parts_lowered_function (hR : ∀ m s, R m s → lower src m = .ok s) {kind : String}
    (hk : kind ∈ functionKinds) {name body : Option Node} {params : List Node}
    {us ps bs : List Ast.Node} (hu : List.Forall₂ R name.toList us) (hp : List.Forall₂ R params ps)
    (hb : List.Forall₂ R body.toList bs) :
    (Ast.Node.function kind (us.headD .absent) (.items ps) (bs.headD .absent)).parts? =
      .ok (us ++ (ps ++ bs)) := by
  rw [Ast.parts?_function hk, ← List.singleton_append, List.filter_append, List.filter_append,
    filter_headD_of_forall₂ hR hu, filter_isNode_of_forall₂ hR hp, filter_headD_of_forall₂ hR hb]

theorem parts_lowered_value (hR : ∀ m s, R m s → lower src m = .ok s) {body : Option Node}
    {params : List Node} {ps bs : List Ast.Node} (hp : List.Forall₂ R params ps)
    (hb : List.Forall₂ R body.toList bs) :
    (Ast.Node.function "function_expression" .absent (.items ps) (bs.headD .absent)).parts? =
      .ok (ps ++ bs) := by
  have hu : List.Forall₂ R (none : Option Node).toList [] := .nil
  exact parts_lowered_function hR (by decide) hu hp hb

theorem forall_of_forall₂ {P : Ast.Node → Prop} {ms : List Node} {ss : List Ast.Node}
    (h : List.Forall₂ (fun m s => lower src m = .ok s ∧ P s) ms ss) : ∀ s ∈ ss, P s := by
  induction h with
  | nil => simp
  | cons hs _ ih =>
    intro s' hs'
    rcases List.mem_cons.1 hs' with rfl | hs'
    · exact hs.2
    · exact ih s' hs'

/-- An optional part that is there satisfies what all of them do. -/
theorem of_headD {P : Ast.Node → Prop} {o : Option Node} {ss : List Ast.Node}
    (h : List.Forall₂ (fun m s => lower src m = .ok s ∧ P s) o.toList ss)
    (hn : (ss.headD .absent).isNode = true) : P (ss.headD .absent) := by
  cases ss with
  | nil => cases hn
  | cons s ss => exact forall_of_forall₂ h s (List.mem_cons_self ..)

/-- The lowered trees of some nodes, which conform, are nodes. -/
theorem isNode_of_conforming {ms : List Node} {ss : List Ast.Node}
    (h : List.Forall₂ (fun m s => lower src m = .ok s ∧ s.Conforming) ms ss) :
    ∀ s ∈ ss, s.isNode = true :=
  isNode_of_forall₂ (fun _ _ hms => hms.1) h

theorem conforming_function {kind : String} (hk : kind ∈ functionKinds) {name body : Option Node}
    {params : List Node} {us ps bs : List Ast.Node}
    (hu : List.Forall₂ (fun m s => lower src m = .ok s ∧ s.Conforming) name.toList us)
    (hp : List.Forall₂ (fun m s => lower src m = .ok s ∧ s.Conforming) params ps)
    (hb : List.Forall₂ (fun m s => lower src m = .ok s ∧ s.Conforming) body.toList bs) :
    (Ast.Node.function kind (us.headD .absent) (.items ps) (bs.headD .absent)).Conforming := by
  have hname := Ast.admits_headD (isNode_of_conforming hu)
  have hbody := Ast.admits_headD (isNode_of_conforming hb)
  refine Ast.conforming_of_content
    (Ast.conforms_function hk hname (isNode_of_conforming hp) hbody) fun c hc hn => ?_
  rw [Ast.Node.content, Ast.each_of_admits hname, Ast.each_of_admits hbody] at hc
  simp only [Ast.Node.each, List.mem_append, List.mem_singleton] at hc
  rcases hc with rfl | hc | rfl
  · exact of_headD hu hn
  · exact forall_of_forall₂ hp c hc
  · exact of_headD hb hn

theorem conforming_importDecl {source clause : Option Node} {ss cs : List Ast.Node}
    (hs : List.Forall₂ (fun m s => lower src m = .ok s ∧ s.Conforming) source.toList ss)
    (hc : List.Forall₂ (fun m s => lower src m = .ok s ∧ s.Conforming) clause.toList cs) :
    (Ast.Node.importDecl (ss.headD .absent) (cs.headD .absent)).Conforming := by
  have hsource := Ast.admits_headD (isNode_of_conforming hs)
  have hclause := Ast.admits_headD (isNode_of_conforming hc)
  refine Ast.conforming_of_content
    (Ast.conforms_of_owned rfl rfl (by decide) (by simp) fun field arity hmem => ?_)
    fun c hc' hn => ?_
  · simp only [Ast.Node.owned, List.mem_cons, Prod.mk.injEq, List.not_mem_nil, or_false] at hmem
    rcases hmem with ⟨rfl, rfl⟩ | ⟨rfl, rfl⟩
    · exact hclause
    · exact hsource
  · rw [Ast.Node.content, Ast.each_of_admits hsource, Ast.each_of_admits hclause] at hc'
    simp only [List.mem_append, List.mem_singleton] at hc'
    rcases hc' with rfl | rfl
    · exact of_headD hs hn
    · exact of_headD hc hn

theorem conforming_call {callee : Ast.Node} {args : List Ast.Node} {ms : List Node}
    (hnode : callee.isNode = true) (hc : callee.Conforming)
    (ha : List.Forall₂ (fun m s => lower src m = .ok s ∧ s.Conforming) ms args) :
    (Ast.Node.call callee (.items args)).Conforming := by
  have hcallee : Ast.Arity.single.Admits callee := .inl hnode
  refine Ast.conforming_of_content
    (Ast.conforms_of_owned rfl rfl (by decide) (by simp) fun field arity hmem => ?_)
    fun c hc' _ => ?_
  · simp only [Ast.Node.owned, List.mem_cons, Prod.mk.injEq, List.not_mem_nil, or_false] at hmem
    rcases hmem with ⟨rfl, rfl⟩ | ⟨rfl, rfl⟩
    · exact hcallee
    · exact ⟨args, rfl, isNode_of_conforming ha⟩
  · rw [Ast.Node.content, Ast.each_of_admits hcallee] at hc'
    rcases List.mem_cons.1 hc' with rfl | hc'
    · exact hc
    · exact forall_of_forall₂ ha c hc'

theorem conforming_program {ms : List Node} {ts : List Ast.Node}
    (h : List.Forall₂ (fun m s => lower src m = .ok s ∧ s.Conforming) ms ts) :
    (Ast.Node.program (.items ts)).Conforming := by
  refine Ast.conforming_of_content
    (Ast.conforms_of_owned rfl rfl (by decide) (by simp) fun field arity hmem => ?_)
    fun c hc _ => forall_of_forall₂ h c hc
  obtain ⟨rfl, rfl⟩ := Prod.mk.inj (List.mem_singleton.1 hmem)
  exact ⟨ts, rfl, isNode_of_conforming h⟩

theorem conforming_plain {kind : String} (hk : kind ∉ functionKinds) {ts : List Ast.Node}
    (hnode : ∀ t ∈ ts, t.isNode = true) (h : ∀ t ∈ ts, t.Conforming) :
    (Ast.Node.plain kind (.items ts)).Conforming :=
  Ast.conforming_of_content (Ast.conforms_plain hk hnode) fun c hc _ => h c hc

/-- Every node of a lowered tree conforms to the schema. -/
theorem lower_conforming (h : lower src n = .ok t) : t.Conforming := by
  refine lower_induction (motive := fun _ t => t.Conforming) (fun n t h => ?_) h
  cases h with
  | program _ h => exact conforming_program h
  | string _ _ | ident _ | importOp _ =>
    refine Ast.conforming_of_content ?_ fun c hc _ => by cases hc
    exact Ast.conforms_of_owned rfl rfl (by decide) (by simp) fun _ _ hmem => by cases hmem
  | importDecl _ hs hc => exact conforming_importDecl hs hc
  | call _ _ hc ha => exact conforming_call (lower_isNode hc.1) hc.2 ha
  | function hk hu hp hb => exact conforming_function hk hu hp hb
  | method hk hks hp hb =>
    have hu : List.Forall₂ (fun m s => lower src m = .ok s ∧ s.Conforming)
      (none : Option Node).toList [] := .nil
    have hvalue := conforming_function (by decide : "function_expression" ∈ functionKinds) hu hp hb
    refine conforming_plain (by rw [hk]; decide) (fun c hc => ?_) fun c hc => ?_
    · rcases List.mem_append.1 hc with hc | hc
      · exact isNode_of_conforming hks c hc
      · obtain rfl := List.mem_singleton.1 hc
        rfl
    · rcases List.mem_append.1 hc with hc | hc
      · exact forall_of_forall₂ hks c hc
      · obtain rfl := List.mem_singleton.1 hc
        exact hvalue
  | bareCall hk _ h =>
    exact conforming_plain (by rw [hk]; decide) (isNode_of_conforming h) (forall_of_forall₂ h)
  | plain _ hf h => exact conforming_plain hf (isNode_of_conforming h) (forall_of_forall₂ h)

theorem lower_sound (h : lower src n = .ok t) : t.Sound :=
  (lower_conforming h).sound

theorem lower_program (h : lower src n = .ok t) (hk : n.kind = "program") :
    ∃ body, t = .program body := by
  refine lower_induction (motive := fun n t => n.kind = "program" → ∃ body, t = .program body)
    (fun n t h hk => ?_) h hk
  cases h with
  | program _ h => exact ⟨_, rfl⟩
  | function hmem _ _ _ =>
    rw [hk] at hmem
    exact absurd hmem (by decide)
  | plain hown _ _ =>
    rw [hk] at hown
    exact absurd hown (by decide)
  | string hk' _ | ident hk' | importOp hk' | importDecl hk' _ _ | call hk' _ _ _ | method hk' _ _ _
  | bareCall hk' _ _ =>
    rw [hk] at hk'
    exact absurd hk' (by decide)

/-! ## Traversals of lowered trees -/

/-- Every node of a lowered tree, in whatever field it is held, conforms to the schema of its kind. So a
walk with any visitor and a dump with any options end in no fault of the tree but its depth, and the
nodes that raise the depth of a scope are those that a dump marks; leaves are kept apart there, since
their label is their own text. A program becomes a program. -/
theorem lowerDeep_conforms (h : lowerDeep src n = .ok t) :
    (∀ m, t.Reaches m → m.Conforms) ∧
    (∀ (σ ε : Type) (visit : Ast.Visitor σ ε) (room : Nat) (scope : Ast.Scope) (state : σ),
      (Ast.walk visit room t scope state).halt ≠ some .imbalance ∧
      ∀ f, (Ast.walk visit room t scope state).halt = some (.tree f) →
        f = .tooDeep ∧ ¬ t.FitsIn room) ∧
    (∀ opts room level field d f, Ast.draw opts room level field t d = .error f →
      f = .tooDeep ∧ ¬ t.FitsIn room) ∧
    (∀ room opts f, t.dump room opts = .error f → f = .tooDeep ∧ ¬ t.FitsIn room) ∧
    (∀ m kind, t.Reaches m → m.kind? = some kind → ∀ (scope : Ast.Scope) (limit : Int),
      scope.boundaryKinds = functionKinds →
        (scope.depth < (scope.enter kind).1.depth ↔ m.text? = none ∧
          m.label limit = .ok (Text.ofString kind ++ " (scope boundary)"))) ∧
    (n.kind = "program" → ∃ body, t = .program body) := by
  rw [lowerDeep_eq_lower] at h
  have hconf := lower_conforming h
  refine ⟨hconf, fun σ ε visit room scope state => ?_, fun _ _ _ _ _ _ hf => hconf.draw_error hf,
    fun _ _ _ hf => hconf.dump_error hf, fun m kind hm hk scope limit hkinds => ?_, lower_program h⟩
  · constructor
    · intro himbalance
      cases Ast.walk_cutBy hconf.sound himbalance
    · intro f hf
      cases Ast.walk_cutBy hconf.sound hf with
      | depth hfar => exact ⟨rfl, hfar⟩
  · rw [← (hconf m hm).boundary_iff hk limit, Ast.Scope.depth_lt_enter_iff, hkinds]

end Lowered

/-- A program of a call without a callee and a method without parameters. -/
def callAndMethod : Node :=
  .mk { kind := "program", start := 0, stop := 6 }
    [.mk { kind := "call_expression", start := 0, stop := 2 } [],
     .mk { kind := "method_definition", start := 2, stop := 6 }
      [.mk { kind := "property_identifier", start := 2, stop := 3, field := some "name" } [],
       .mk { kind := "statement_block", start := 4, stop := 6, field := some "body" } []]]

/-- The call is kept as a plain node of its kind, and the method gets a function of its own. -/
theorem lowerDeep_callAndMethod : ∃ t, lowerDeep [] callAndMethod = .ok t ∧
    t = .program (.items
      [.plain "call_expression" (.items []),
       .plain "method_definition" (.items
        [.plain "property_identifier" (.items []),
         .function "function_expression" .absent (.items []) (.plain "statement_block" (.items []))])]) ∧
    (∀ m, t.Reaches m → m.Conforms) ∧ (∃ lines, t.dump 9 = .ok lines) ∧ ∃ body, t = .program body := by
  have hnode : ∃ t, lower [] callAndMethod = .ok t ∧ t.height ≤ 9 ∧ t.isNode = true ∧
      t = .program (.items
        [.plain "call_expression" (.items []),
         .plain "method_definition" (.items
          [.plain "property_identifier" (.items []),
           .function "function_expression" .absent (.items [])
            (.plain "statement_block" (.items []))])]) :=
    ⟨_, rfl, by decide, rfl, rfl⟩
  obtain ⟨t, ht, hheight, hnode, htree⟩ := hnode
  rw [← lowerDeep_eq_lower] at ht
  obtain ⟨hconf, -, -, hdump, -, hprogram⟩ := lowerDeep_conforms ht
  refine ⟨t, ht, htree, hconf, ?_, hprogram rfl⟩
  cases hlines : t.dump 9 with
  | ok lines => exact ⟨lines, rfl⟩
  | error f => exact absurd (Ast.Node.fitsIn_of_height_le hnode hheight) (hdump 9 _ f hlines).2

end LazyLint.Cst
