import LazyLint.Proofs.Conformance
import LazyLint.Proofs.Interruption

/-!
# Dumps along a list

A dump repeats the recursion of a walk, with levels, fields and a limit of its own. Here it goes along a
list as well: `Node.outline` holds the nodes of a tree in pre-order, each with the field that it hangs
from, and its places are those that a walk shows (`map_place_outline`). `draw_eq_sketch` says that a
drawing puts down the lines of the first nodes of the list, as many as the limit allows.

The limit is looked at before each node, and a drawing that has reached it goes on through the fields
that are left. That this comes to cutting the list once is `sketch_append`.
-/

namespace LazyLint.Ast

/-! ## What a dump calls a node -/

/-- The label of a node: the text of a string, cut to the limit, the name of an identifier, the number of
arguments of a call, that a function bounds a scope, and the bare kind of any other node. -/
inductive Node.Called (limit : Int) : Node → Text → Prop
  | short {value : Text} (h : (value.length : Int) ≤ limit) :
    Called limit (.string value) ("string \"" ++ value ++ "\"")
  | long {value : Text} (h : limit < value.length) :
    Called limit (.string value) ("string \"" ++ (cut value limit ++ "…") ++ "\"")
  | ident {name : Text} : Called limit (.ident name) ("identifier " ++ name)
  | call {callee : Node} {args : List Node} :
    Called limit (.call callee (.items args)) ("call_expression (" ++ Text.ofNat args.length ++ " args)")
  | function {kind : String} {name params body : Node} :
    Called limit (.function kind name params body) (Text.ofString kind ++ " (scope boundary)")
  | other {n : Node} {kind : String} (hk : n.kind? = some kind) (htext : n.text? = none)
    (hcall : ∀ callee args, n ≠ .call callee args)
    (hfunction : ∀ kind name params body, n ≠ .function kind name params body) :
    Called limit n (Text.ofString kind)

theorem called_of_label {n : Node} {limit : Int} {label : Text} (h : n.label limit = .ok label) :
    n.Called limit label := by
  cases n with
  | string value =>
    cases h
    unfold shortened
    split
    · exact .short ‹_›
    · exact .long (Int.lt_of_not_ge ‹_›)
  | ident name =>
    cases h
    exact .ident
  | call callee args =>
    cases args with
    | items args =>
      cases h
      exact .call
    | _ => cases h
  | function kind name params body =>
    cases h
    exact .function
  | stray type kind =>
    cases kind with
    | none => cases h
    | some kind =>
      cases h
      exact .other rfl rfl nofun nofun
  | items | atom => cases h
  | _ =>
    cases h
    exact .other rfl rfl nofun nofun

/-! ## The outline of a tree -/

theorem mem_parts_of_branch {n m : Node} {field : String} (h : (field, m) ∈ n.branches) : m ∈ n.parts :=
  List.mem_map_of_mem h

/-- A node in its place in a tree, with the field that it hangs from. -/
structure Hung where
  field : Option String
  place : Placed

def Hung.under (n : Node) (h : Hung) : Hung :=
  { h with place := h.place.under n }

/-- The nodes of a tree in pre-order, given the field that the tree hangs from. -/
def Node.outline (field : Option String) (n : Node) : List Hung :=
  { field, place := { node := n } } ::
    n.branches.attach.flatMap fun ⟨b, _⟩ => (b.2.outline (some b.1)).map (.under n)
termination_by n.height
decreasing_by exact height_lt_of_mem_parts (mem_parts_of_branch ‹_›)

section Outline

variable {n : Node} {field : Option String} {h : Hung}

theorem outline_eq (field : Option String) (n : Node) :
    n.outline field = { field, place := { node := n } } ::
      n.branches.flatMap fun b => (b.2.outline (some b.1)).map (.under n) := by
  rw [Node.outline]
  conv_rhs => rw [← List.attach_map_subtype_val n.branches, List.flatMap_map]

/-- The outline goes through the places that a walk shows. -/
theorem map_place_outline (field : Option String) (n : Node) :
    (n.outline field).map (·.place) = n.visits := by
  induction hh : n.height using Nat.strongRecOn generalizing field n with
  | _ k ih =>
    rw [outline_eq, Node.visits_eq, List.map_cons, Node.parts, List.flatMap_map, List.map_flatMap]
    congr 1
    refine List.flatMap_congr fun b hb => ?_
    have hlt := height_lt_of_mem_parts (mem_parts_of_branch hb)
    rw [← ih b.2.height (hh ▸ hlt) (some b.1) b.2 rfl, List.map_map, List.map_map]
    rfl

/-- The root hangs from the field that is given, and every other node from a field of the node right
above it, where a traversal finds it. -/
theorem hangs_of_mem_outline (hmem : h ∈ n.outline field) :
    match h.place.above.getLast? with
    | none => h.field = field ∧ h.place.node = n
    | some parent => ∃ f, h.field = some f ∧ (f, h.place.node) ∈ parent.branches := by
  induction hh : n.height using Nat.strongRecOn generalizing field n h with
  | _ k ih =>
    rw [outline_eq, List.mem_cons, List.mem_flatMap] at hmem
    rcases hmem with rfl | ⟨b, hb, hmem⟩
    · exact ⟨rfl, rfl⟩
    · obtain ⟨g, hg, rfl⟩ := List.mem_map.1 hmem
      have hlt := height_lt_of_mem_parts (mem_parts_of_branch hb)
      have hbelow := ih b.2.height (hh ▸ hlt) hg rfl
      have habove : (g.under n).place.above.getLast? = some (g.place.above.getLast?.getD n) :=
        List.getLast?_cons
      rw [habove]
      cases hlast : g.place.above.getLast? with
      | none =>
        -- a root of a tree below, right below the node
        rw [hlast] at hbelow
        obtain ⟨hfield, hnode⟩ := hbelow
        exact ⟨b.1, hfield, hnode ▸ hb⟩
      | some parent =>
        rw [hlast] at hbelow
        exact hbelow

end Outline

/-! ## Drawing along the outline -/

/-- The line of a node, in a drawing that begins at some level and in some scope. -/
def Hung.line (opts : DumpOptions) (level : Nat) (scope : Scope) (h : Hung) : Except Fault Text := do
  let label ← h.place.node.label opts.textLimit
  return dumpLine opts (level + h.place.above.length) (h.place.depthIn scope) h.field label

def Drawn.add (d : Drawn) (lines : List Text) : Drawn :=
  { d with lines := lines.reverse ++ d.lines, count := d.count + lines.length }

/-- The lines of nodes put down one after another, as many as the limit allows. -/
def sketch (opts : DumpOptions) (level : Nat) (hs : List Hung) (d : Drawn) : Except Fault Drawn :=
  ((hs.take (opts.maxNodes - d.count).toNat).mapM (Hung.line opts level d.scope)).map d.add

section Sketch

variable {opts : DumpOptions} {level : Nat} {hs : List Hung} {d e : Drawn}

theorem add_add (d : Drawn) (xs ys : List Text) : (d.add xs).add ys = d.add (xs ++ ys) := by
  simp [Drawn.add, Nat.add_assoc]

theorem sketch_nil : sketch opts level [] d = .ok d := by
  rw [sketch, List.take_nil]
  rfl

theorem sketch_full (h : opts.maxNodes ≤ d.count) : sketch opts level hs d = .ok d := by
  have hnone : (opts.maxNodes - d.count).toNat = 0 := by omega
  rw [sketch, hnone]
  rfl

/-- The limit may be looked at again between two lists. -/
theorem sketch_append (ps qs : List Hung) (d : Drawn) :
    sketch opts level (ps ++ qs) d = sketch opts level ps d >>= sketch opts level qs := by
  rw [sketch, sketch, List.take_append, List.mapM_append]
  cases hlines : (ps.take (opts.maxNodes - d.count).toNat).mapM (Hung.line opts level d.scope) with
  | error f => rfl
  | ok lines =>
    have hlength := length_of_mapM hlines
    rw [List.length_take] at hlength
    -- Either the first list is put down whole, or the limit is used up and leaves nothing.
    have hleft : (opts.maxNodes - (d.add lines).count).toNat =
        (opts.maxNodes - d.count).toNat - ps.length := by
      rw [Drawn.add]
      push_cast
      omega
    change _ = sketch opts level qs (d.add lines)
    rw [sketch, hleft, Drawn.add]
    cases hmore : (qs.take ((opts.maxNodes - d.count).toNat - ps.length)).mapM
      (Hung.line opts level d.scope) with
    | error f => rfl
    | ok more =>
      change Except.ok (d.add (lines ++ more)) = Except.ok ((d.add lines).add more)
      rw [add_add]

theorem sketch_cons (h : d.count < opts.maxNodes) (p : Hung) (hs : List Hung) :
    sketch opts level (p :: hs) d =
      p.line opts level d.scope >>= fun line => sketch opts level hs (d.add [line]) := by
  have htake : [p].take (opts.maxNodes - d.count).toNat = [p] :=
    List.take_of_length_le (by rw [List.length_singleton]; omega)
  rw [← List.singleton_append, sketch_append, sketch, htake]
  cases hline : p.line opts level d.scope with
  | error f => simp [hline, bind, Except.bind, Except.map]
  | ok line => simp [hline, bind, Except.bind, pure, Except.pure, Except.map]

/-- Below a node the level is one more, and the scope is the one inside the node. -/
theorem line_under {n : Node} {kind : String} (hk : n.kind? = some kind) (p : Hung) (scope : Scope) :
    (p.under n).line opts level scope = p.line opts (level + 1) (scope.enter kind).1 := by
  have hlevel : level + (p.place.under n).above.length = level + 1 + p.place.above.length := by
    rw [Placed.under, List.length_cons]
    omega
  rw [Hung.line, Hung.under, Placed.depthIn_under hk, hlevel]
  rfl

/-- The scope inside the node is left again. -/
theorem sketch_under {n : Node} {kind : String} (hk : n.kind? = some kind) (hs : List Hung)
    (d : Drawn) :
    sketch opts level (hs.map (.under n)) d =
      (sketch opts (level + 1) hs { d with scope := (d.scope.enter kind).1 }).map fun e =>
        { e with scope := (e.scope.exit (d.scope.enter kind).2).getD e.scope } := by
  have hline : Hung.line opts level d.scope ∘ Hung.under n =
      Hung.line opts (level + 1) (d.scope.enter kind).1 :=
    funext fun p => line_under hk p d.scope
  rw [sketch, sketch, ← List.map_take, List.mapM_map, hline]
  dsimp only
  cases (hs.take (opts.maxNodes - d.count).toNat).mapM
    (Hung.line opts (level + 1) (d.scope.enter kind).1) with
  | error f => rfl
  | ok lines =>
    simp only [Except.map, Drawn.add, Scope.exit_enter]
    rfl

end Sketch

section Draw

variable {opts : DumpOptions} {level : Nat} {n : Node} {d : Drawn}

theorem drawList_eq_sketch {go : Node → Drawn → Except Fault Drawn} {field : String} {ms : List Node}
    (hgo : ∀ m ∈ ms, ∀ d, go m d = sketch opts level (m.outline (some field)) d) (d : Drawn) :
    drawList go ms d = sketch opts level (ms.flatMap (Node.outline (some field))) d := by
  induction ms generalizing d with
  | nil => exact sketch_nil.symm
  | cons m ms ih =>
    obtain ⟨hm, hms⟩ := List.forall_mem_cons.1 hgo
    rw [drawList, List.flatMap_cons, sketch_append, hm]
    exact bind_congr fun e => ih hms e

theorem drawFields_eq_sketch {go : String → Node → Drawn → Except Fault Drawn}
    {fields : List (String × Arity)} {ms : List Node} (hread : n.inFields fields = .ok ms)
    (hgo : ∀ f, ∀ m ∈ ms, ∀ d, go f m d = sketch opts level (m.outline (some f)) d) (d : Drawn) :
    drawFields go n fields d =
      sketch opts level ((n.branchesIn fields).flatMap fun b => b.2.outline (some b.1)) d := by
  induction fields generalizing ms d with
  | nil => exact sketch_nil.symm
  | cons fa fields ih =>
    obtain ⟨field, arity⟩ := fa
    obtain ⟨first, rest, hf, hr, rfl⟩ := Node.inFields_cons_eq_ok_iff.1 hread
    have hfirst := drawList_eq_sketch fun m hm => hgo field m (List.mem_append_left rest hm)
    rw [drawFields, hf, branchesIn_cons hf, List.flatMap_append, List.flatMap_map, sketch_append,
      ← hfirst]
    exact bind_congr fun e => ih hr (fun f m hm => hgo f m (List.mem_append_right first hm)) e

/-- One level of a drawing below the limit. -/
theorem draw_step {room : Nat} {kind : String} {fields : List (String × Arity)}
    (hcount : d.count < opts.maxNodes) (hk : n.kind? = some kind) (hf : n.fields = .ok fields)
    (field : Option String) :
    draw opts (room + 1) level field n d =
      Hung.line opts level d.scope { field, place := { node := n } } >>= fun line =>
        (drawFields (fun f => draw opts room (level + 1) (some f)) n fields
          { d.add [line] with scope := (d.scope.enter kind).1 }).map fun e =>
            { e with scope := (e.scope.exit (d.scope.enter kind).2).getD e.scope } := by
  rw [draw, if_neg (Int.not_le_of_gt hcount), Hung.line]
  cases n.label opts.textLimit with
  | error f => rfl
  | ok label =>
    simp only [hk, hf]
    rfl

/-- A drawing puts down the outline of the tree. -/
theorem draw_eq_sketch {room : Nat} (hn : n.Sound) (hfits : n.FitsIn room) (field : Option String) :
    draw opts room level field n d = sketch opts level (n.outline field) d := by
  -- on the room, which goes down as the level goes up
  induction room generalizing level n d field with
  | zero => exact absurd hfits n.not_fitsIn_zero
  | succ room ih =>
    by_cases hfull : opts.maxNodes ≤ d.count
    · rw [draw, if_pos hfull, sketch_full hfull]
    · have hcount : (d.count : Int) < opts.maxNodes := Int.lt_of_not_ge hfull
      obtain ⟨⟨kind, hk⟩, ms, hms⟩ : (∃ kind, n.kind? = some kind) ∧ ∃ ms, n.parts? = .ok ms :=
        hn { node := n } (mem_visits_iff.2 (.here n))
      obtain ⟨fields, hf, hread⟩ := Node.parts?_eq_ok_iff.1 hms
      have hbranches : n.branches = n.branchesIn fields := by rw [Node.branches, hf]
      have hbelow : ∀ f, ∀ m ∈ ms, ∀ d,
          draw opts room (level + 1) (some f) m d = sketch opts (level + 1) (m.outline (some f)) d := by
        intro f m hm d
        rw [← Node.parts_eq hms] at hm
        exact ih (hn.part hm) (Node.fitsIn_succ_iff.1 hfits m hm) (some f)
      rw [draw_step hcount hk hf, outline_eq, sketch_cons hcount, ← List.map_flatMap, hbranches]
      refine bind_congr fun line => ?_
      rw [drawFields_eq_sketch hread hbelow, sketch_under hk]
      rfl

/-- A dump is the lines of the first nodes of the outline, then the line that says it was cut. -/
theorem dump_eq {room : Nat} (hn : n.Sound) (hfits : n.FitsIn room) (opts : DumpOptions) :
    n.dump room opts =
      (((n.outline none).take opts.maxNodes.toNat).mapM (Hung.line opts 0 {})).map fun lines =>
        lines ++ if opts.maxNodes ≤ lines.length then
          [opts.indent ++ "… (truncated at " ++ Text.ofInt opts.maxNodes ++ " nodes)"] else [] := by
  have hlimit : (opts.maxNodes - (0 : Nat)).toNat = opts.maxNodes.toNat := by omega
  rw [Node.dump, draw_eq_sketch hn hfits, sketch]
  dsimp only
  rw [hlimit]
  cases ((n.outline none).take opts.maxNodes.toNat).mapM (Hung.line opts 0 {}) with
  | error f => rfl
  | ok lines => simp [Except.map, bind, Except.bind, Drawn.add]

theorem line_eq_ok_iff {h : Hung} {scope : Scope} {line : Text} :
    h.line opts level scope = .ok line ↔ ∃ label, h.place.node.label opts.textLimit = .ok label ∧
      line = dumpLine opts (level + h.place.above.length) (h.place.depthIn scope) h.field label := by
  rw [Hung.line, bind_eq_ok_iff]
  constructor
  · rintro ⟨label, hlabel, hline⟩
    cases hline
    exact ⟨label, hlabel, rfl⟩
  · rintro ⟨label, hlabel, rfl⟩
    exact ⟨label, hlabel, rfl⟩

end Draw

/-! ## A dump and a walk -/

section Follow

variable {σ ε : Type} {visit : Visitor σ ε} {room : Nat} {state : σ} {n : Node}

/-- A walk that is not cut short calls its visitor for every node of the tree. -/
theorem walk_whole (hwalk : (walk visit room n {} state).halt = none) :
    ∃ calls : List (Call ε),
      walk visit.recorded room n {} (state, []) = (walk visit room n {} state).withCalls calls ∧
      calls.map (fun c => (c.node, c.depth)) = n.visits.map fun p => (p.node, p.depthIn {}) := by
  obtain ⟨⟨seen, rest, calls, hvisits, hcalls, hmarch, hends⟩, -⟩ :=
    walk_calls_preorder visit room n {} state
  rw [hwalk] at hends
  cases hends with
  | whole hrest _ _ =>
    rw [hrest, List.filterMap_nil, List.append_nil] at hvisits
    rw [← hvisits] at hcalls
    exact ⟨calls, hmarch, hcalls⟩

theorem exists_lines (hn : n.Sound) (hargs : ∀ p ∈ n.visits, ∀ callee args,
    p.node = .call callee args → ∃ values, args = .items values) (opts : DumpOptions) (limit : Nat) :
    ∃ lines, ((n.outline none).take limit).mapM (Hung.line opts 0 {}) = .ok lines := by
  cases hlines : ((n.outline none).take limit).mapM (Hung.line opts 0 {}) with
  | ok lines => exact ⟨lines, rfl⟩
  | error f =>
    obtain ⟨h, hmem, hfail⟩ := exists_error_of_mapM hlines
    have hvisited : h.place ∈ n.visits := by
      rw [← map_place_outline none n]
      exact List.mem_map_of_mem (List.mem_of_mem_take hmem)
    obtain ⟨⟨kind, hk⟩, -⟩ := hn h.place hvisited
    obtain ⟨label, hlabel⟩ := Node.exists_label hk (hargs h.place hvisited) opts.textLimit
    cases hfail.symm.trans (line_eq_ok_iff.2 ⟨label, hlabel, rfl⟩)

end Follow

/-- A dump and a walk see the same tree. Where a walk is not cut short and every call has a list of
arguments, a dump gives a line for each of the first nodes that the walk calls its visitor for, as many as
the limit allows, and it says at the end if the limit is reached. The line of a node is the indentation
once for each node above it, the field of the node right above it in which it is found (none for the root),
its label, and, if depths are shown, the depth that the visitor is given for it. -/
theorem dump_lines_follow_walk {σ ε : Type} {visit : Visitor σ ε} {room : Nat} {state : σ} {n : Node}
    (hwalk : (walk visit room n {} state).halt = none)
    (hargs : ∀ p ∈ n.visits, ∀ callee args, p.node = .call callee args → ∃ values, args = .items values)
    (opts : DumpOptions) :
    ∃ (calls : List (Call ε)) (lines : List Text),
      walk visit.recorded room n {} (state, []) = (walk visit room n {} state).withCalls calls ∧
      n.dump room opts = .ok (lines ++ if opts.maxNodes ≤ lines.length then
        [opts.indent ++ "… (truncated at " ++ Text.ofInt opts.maxNodes ++ " nodes)"] else []) ∧
      lines.length = min calls.length opts.maxNodes.toNat ∧
      (n.outline none).map (·.place) = n.visits ∧
      (∀ h ∈ n.outline none, match h.place.above.getLast? with
        | none => h.field = none ∧ h.place.node = n
        | some parent => ∃ f, h.field = some f ∧ (f, h.place.node) ∈ parent.branches) ∧
      ∀ i < lines.length, ∃ h call label,
        (n.outline none)[i]? = some h ∧ calls[i]? = some call ∧ h.place.node = call.node ∧
        call.node.Called opts.textLimit label ∧
        lines[i]? = some ((List.replicate h.place.above.length opts.indent).flatten ++
          (match h.field with
            | some field => Text.ofString field ++ ": "
            | none => []) ++
          label ++ if opts.showDepth then " [depth=" ++ Text.ofNat call.depth ++ "]" else []) := by
  have hn : n.Sound := sound_of_halt_none hwalk
  obtain ⟨calls, hwalked, hcalls⟩ := walk_whole hwalk
  obtain ⟨lines, hlines⟩ := exists_lines hn hargs opts opts.maxNodes.toNat
  have hplaces : (n.outline none).map (·.place) = n.visits := map_place_outline none n
  rw [← hplaces, List.map_map] at hcalls
  have houtline : (n.outline none).length = calls.length := by
    simpa using congrArg List.length hcalls.symm
  have hlength : lines.length = min calls.length opts.maxNodes.toNat := by
    rw [length_of_mapM hlines, List.length_take, houtline, Nat.min_comm]
  refine ⟨calls, lines, hwalked, ?_, hlength, hplaces, fun h => hangs_of_mem_outline,
    fun i hi => ?_⟩
  · rw [dump_eq hn (fitsIn_of_halt_none hwalk), hlines]
    rfl
  · have hcall : i < calls.length := by omega
    have hhung : i < (n.outline none).length := by omega
    have htaken : i < ((n.outline none).take opts.maxNodes.toNat).length := by
      rw [List.length_take]
      omega
    have hline := (mapM_eq_ok_iff.1 hlines).get htaken hi
    rw [List.get_eq_getElem, List.getElem_take, List.get_eq_getElem, line_eq_ok_iff] at hline
    obtain ⟨label, hlabel, hline⟩ := hline
    have hsame : calls[i].node = (n.outline none)[i].place.node ∧
        calls[i].depth = (n.outline none)[i].place.depthIn {} := by
      simpa [hcall, hhung] using congrArg (·[i]?) hcalls
    refine ⟨(n.outline none)[i], calls[i], label, List.getElem?_eq_getElem hhung,
      List.getElem?_eq_getElem hcall, hsame.1.symm, ?_, ?_⟩
    · rw [hsame.1]
      exact called_of_label hlabel
    · rw [List.getElem?_eq_getElem hi, hline, hsame.2, Nat.zero_add]
      rfl

/-! ### A dump that is cut short inside a function -/

/-- A function with a call in its body, and a name after it. -/
def callInFunction : Node :=
  .program (.items
    [.function "arrow_function" .absent (.items [.ident "x"])
      (.plain "statement_block" (.items [.call (.ident "g") (.items [.string "a"])])),
     .ident "z"])

/-- The visitor that does nothing. -/
def idle : Visitor Unit Empty :=
  fun _ _ state => (state, none)

theorem dump_lines_follow_walk_callInFunction :
    ∃ (calls : List (Call Empty)) (lines : List Text),
      walk idle.recorded 9 callInFunction {} ((), []) =
        (walk idle 9 callInFunction {} ()).withCalls calls ∧
      calls.map (fun c => (c.node.kind?, c.depth)) =
        [(some "program", 0), (some "arrow_function", 0), (some "identifier", 1),
          (some "statement_block", 1), (some "call_expression", 1), (some "identifier", 1),
          (some "string", 1), (some "identifier", 0)] ∧
      callInFunction.dump 9 { maxNodes := 5 } = .ok (lines ++
        [Text.ofString "  … (truncated at 5 nodes)"]) ∧
      lines = ["program [depth=0]", "  body: arrow_function (scope boundary) [depth=0]",
        "    parameters: identifier x [depth=1]", "    body: statement_block [depth=1]",
        "      children: call_expression (1 args) [depth=1]"].map Text.ofString := by
  have hwalk : (walk idle 9 callInFunction {} ()).halt = none := rfl
  have hkept : ∀ {calls : List (Call Empty)}, walk idle.recorded 9 callInFunction {} ((), []) =
      (walk idle 9 callInFunction {} ()).withCalls calls →
      calls = (walk idle.recorded 9 callInFunction {} ((), [])).state.2 := by
    intro calls h
    rw [h]
    rfl
  have hargs : ∀ p ∈ callInFunction.visits, ∀ callee args,
      p.node = .call callee args → ∃ values, args = .items values := by
    obtain ⟨calls, hwalked, hcalls⟩ := walk_whole hwalk
    have hlabels : calls.filterMap (fun c => fault? (c.node.label 0)) = [] := by
      rw [hkept hwalked]
      rfl
    rintro p hp callee args hnode
    obtain ⟨c, hc, hcall⟩ := List.mem_map.1 (hcalls ▸ List.mem_map_of_mem hp)
    have hcall : c.node = .call callee args := (congrArg Prod.fst hcall).trans hnode
    have hlabel := List.filterMap_eq_nil_iff.1 hlabels c hc
    rw [hcall] at hlabel
    cases args with
    | items values => exact ⟨values, rfl⟩
    | _ => cases hlabel
  obtain ⟨calls, lines, hwalked, hdump, hlength, -, -, -⟩ :=
    dump_lines_follow_walk hwalk hargs { maxNodes := 5 }
  have hcalls : calls.length = 8 := by
    rw [hkept hwalked]
    rfl
  have hfive : lines.length = 5 := by
    rw [hlength, hcalls]
    rfl
  have hdrawn : (callInFunction.dump 9 { maxNodes := 5 }).toOption = some (
      ["program [depth=0]", "  body: arrow_function (scope boundary) [depth=0]",
        "    parameters: identifier x [depth=1]", "    body: statement_block [depth=1]",
        "      children: call_expression (1 args) [depth=1]"].map Text.ofString ++
        [Text.ofString "  … (truncated at 5 nodes)"]) := by decide +kernel
  rw [hdump] at hdrawn
  obtain ⟨hlines, hmarker⟩ := List.append_inj (Option.some.inj hdrawn) hfive
  rw [hmarker] at hdump
  refine ⟨calls, lines, hwalked, ?_, hdump, hlines⟩
  rw [hkept hwalked]
  rfl

end LazyLint.Ast
