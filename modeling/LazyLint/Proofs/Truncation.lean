import LazyLint.Proofs.Outline
import LazyLint.Proofs.Schema

/-!
# Dumps at their limit

A dump counts the nodes that it shows and closes with a line that says it was cut once the count has come
to the limit. Whatever tree and whatever limit it is given, the nodes it shows are the first ones of the
outline (`sketch_of_draw`), so the closing line depends on two numbers, the limit and the nodes of the
tree. It is there as well where the two are equal, and then nothing has been cut (`dump_marked_at_limit`).

No node is left uncounted: in a conforming tree, as lowering makes them, whatever a node holds is visited
(`mem_visits_of_reaches`).
-/

namespace LazyLint.Ast

/-! ## A drawing that succeeds -/

section Draw

variable {opts : DumpOptions} {level room : Nat} {field : Option String} {n : Node} {d e : Drawn}

theorem sketch_of_drawList {go : Node → Drawn → Except Fault Drawn} {field : String} {ms : List Node}
    (hgo : ∀ m d e, go m d = .ok e → sketch opts level (m.outline (some field)) d = .ok e)
    (h : drawList go ms d = .ok e) :
    sketch opts level (ms.flatMap (Node.outline (some field))) d = .ok e := by
  induction ms generalizing d with
  | nil =>
    cases h
    exact sketch_nil
  | cons m ms ih =>
    rw [drawList, bind_eq_ok_iff] at h
    obtain ⟨d', hm, hms⟩ := h
    rw [List.flatMap_cons, sketch_append, bind_eq_ok_iff]
    exact ⟨d', hgo m d d' hm, ih hms⟩

theorem sketch_of_drawFields {go : String → Node → Drawn → Except Fault Drawn}
    {fields : List (String × Arity)}
    (hgo : ∀ f m d e, go f m d = .ok e → sketch opts level (m.outline (some f)) d = .ok e)
    (h : drawFields go n fields d = .ok e) :
    sketch opts level ((n.branchesIn fields).flatMap fun b => b.2.outline (some b.1)) d = .ok e := by
  induction fields generalizing d with
  | nil =>
    cases h
    exact sketch_nil
  | cons fa fields ih =>
    obtain ⟨field, arity⟩ := fa
    rw [drawFields, bind_eq_ok_iff] at h
    obtain ⟨ms, hread, h⟩ := h
    rw [bind_eq_ok_iff] at h
    obtain ⟨d', hms, hrest⟩ := h
    rw [branchesIn_cons hread, List.flatMap_append, List.flatMap_map, sketch_append, bind_eq_ok_iff]
    exact ⟨d', sketch_of_drawList (hgo field) hms, ih hrest⟩

/-- A node that is drawn below the limit has a kind, and its fields are known. -/
theorem exists_kind_of_draw (hcount : ¬ opts.maxNodes ≤ d.count)
    (h : draw opts (room + 1) level field n d = .ok e) :
    ∃ kind fields, n.kind? = some kind ∧ n.fields = .ok fields := by
  rw [draw, if_neg hcount, bind_eq_ok_iff] at h
  obtain ⟨label, -, h⟩ := h
  cases hk : n.kind? with
  | none =>
    rw [hk] at h
    cases h
  | some kind =>
    simp only [hk, bind_eq_ok_iff] at h
    obtain ⟨fields, hfields, -⟩ := h
    exact ⟨kind, fields, rfl, hfields⟩

/-- A drawing that succeeds has put down the first lines of the outline, also where there was no room to
draw the rest of the tree. -/
theorem sketch_of_draw (h : draw opts room level field n d = .ok e) :
    sketch opts level (n.outline field) d = .ok e := by
  induction room generalizing level field n d e with
  | zero => cases h
  | succ room ih =>
    by_cases hfull : opts.maxNodes ≤ d.count
    · rw [draw, if_pos hfull] at h
      rw [sketch_full hfull, h]
    · obtain ⟨kind, fields, hk, hf⟩ := exists_kind_of_draw hfull h
      have hcount : (d.count : Int) < opts.maxNodes := Int.lt_of_not_ge hfull
      have hbranches : n.branches = n.branchesIn fields := by rw [Node.branches, hf]
      rw [draw_step hcount hk hf, bind_eq_ok_iff] at h
      obtain ⟨line, hline, h⟩ := h
      rw [outline_eq, sketch_cons hcount, bind_eq_ok_iff]
      refine ⟨line, hline, ?_⟩
      cases hbelow : drawFields (fun f => draw opts room (level + 1) (some f)) n fields
          { d.add [line] with scope := (d.scope.enter kind).1 } with
      | error f =>
        rw [hbelow] at h
        cases h
      | ok d' =>
        rw [hbelow] at h
        rw [← List.map_flatMap, hbranches, sketch_under hk]
        have hsketch := sketch_of_drawFields (fun f m d e hm => ih hm) hbelow
        rw [Drawn.add] at hsketch ⊢
        rw [hsketch]
        exact h

theorem dump_of_draw {out : List Text} (h : n.dump room opts = .ok out) :
    ∃ lines, ((n.outline none).take opts.maxNodes.toNat).mapM (Hung.line opts 0 {}) = .ok lines ∧
      out = lines ++ if opts.maxNodes ≤ lines.length then
        [opts.indent ++ "… (truncated at " ++ Text.ofInt opts.maxNodes ++ " nodes)"] else [] := by
  rw [Node.dump, bind_eq_ok_iff] at h
  obtain ⟨d, hdraw, hout⟩ := h
  have hlimit : (opts.maxNodes - (0 : Nat)).toNat = opts.maxNodes.toNat := by omega
  have hsketch := sketch_of_draw hdraw
  rw [sketch] at hsketch
  dsimp only at hsketch
  rw [hlimit] at hsketch
  cases hlines : ((n.outline none).take opts.maxNodes.toNat).mapM (Hung.line opts 0 {}) with
  | error f =>
    rw [hlines] at hsketch
    cases hsketch
  | ok lines =>
    rw [hlines] at hsketch
    cases hsketch
    cases hout
    exact ⟨lines, rfl, by simp [Drawn.add]⟩

end Draw

/-! ## Nothing is left uncounted -/

section Visits

variable {n m : Node}

/-- A field that is not empty is one of the variant's. -/
theorem Node.mem_owned_of_held {field : String} (h : n.held field ≠ .absent) :
    ∃ arity, (field, arity) ∈ n.owned := by
  revert h
  unfold Node.held
  split <;> intro h
  case h_10 => exact absurd rfl h
  case h_2 | h_3 | h_4 | h_6 | h_8 => exact ⟨.single, by simp [Node.owned]⟩
  all_goals exact ⟨.sequence, by simp [Node.owned]⟩

/-- What a conforming node holds, a traversal finds. -/
theorem mem_parts_of_holds (hn : n.Conforms) (h : n.Holds m) : m ∈ n.parts := by
  obtain ⟨fields, hf, howned⟩ := hn.exists_fields
  rw [Node.mem_parts_iff]
  cases h with
  | @one field hheld hm =>
    have hne : n.held field ≠ .absent := by
      rw [hheld]
      rintro rfl
      cases hm
    obtain ⟨arity, hown⟩ := Node.mem_owned_of_held hne
    have hadmits := hn.values field arity hown
    cases arity with
    | single =>
      refine ⟨fields, field, .single, _, hf, (howned field _).2 hown, rfl, ?_⟩
      rw [hheld]
      exact List.mem_filter.2 ⟨List.mem_singleton_self m, hm⟩
    | sequence =>
      obtain ⟨ms, hms, -⟩ := hadmits
      rw [← hheld, hms] at hm
      cases hm
  | @many field ms hheld hmem hm =>
    have hne : n.held field ≠ .absent := by simp [hheld]
    obtain ⟨arity, hown⟩ := Node.mem_owned_of_held hne
    have hadmits := hn.values field arity hown
    cases arity with
    | single =>
      rw [hheld] at hadmits
      rcases hadmits with h | h <;> cases h
    | sequence =>
      refine ⟨fields, field, .sequence, ms.filter Node.isNode, hf, (howned field _).2 hown, ?_, ?_⟩
      · rw [Node.inField, hheld]
      · exact List.mem_filter.2 ⟨hmem, hm⟩

theorem mem_visits_of_reaches (hn : n.Conforming) (h : n.Reaches m) : ∃ p ∈ n.visits, p.node = m := by
  have hpath : ∃ above, Path n above m := by
    induction h using Relation.ReflTransGen.head_induction_on with
    | refl => exact ⟨[], .here m⟩
    | head hholds _ ih =>
      obtain ⟨above, hpath⟩ := ih (hn.held hholds)
      exact ⟨_, .step (mem_parts_of_holds hn.conforms hholds) hpath⟩
  obtain ⟨above, hpath⟩ := hpath
  exact ⟨⟨above, m⟩, mem_visits_iff.2 hpath, rfl⟩

end Visits

/-! ## The closing line -/

/-- A dump that succeeds shows the first nodes of the tree, as many as the limit allows, and closes with the
line that says it was cut just if the tree has at least as many nodes as the limit. Nodes are left out
just if it has more. So the line tells the truth unless the tree has as many nodes as the limit: then it is
there though every node is shown. All the nodes that a lowered tree holds are counted. -/
theorem dump_marked_at_limit {n : Node} {room : Nat} {opts : DumpOptions} {out : List Text}
    (h : n.dump room opts = .ok out) :
    ∃ lines, ((n.outline none).take opts.maxNodes.toNat).mapM (Hung.line opts 0 {}) = .ok lines ∧
      lines.length = min n.visits.length opts.maxNodes.toNat ∧
      out = lines ++ (if opts.maxNodes ≤ n.visits.length then
        [opts.indent ++ "… (truncated at " ++ Text.ofInt opts.maxNodes ++ " nodes)"] else []) ∧
      (lines.length < n.visits.length ↔ opts.maxNodes < n.visits.length) ∧
      ((opts.maxNodes ≤ n.visits.length ↔ lines.length < n.visits.length) ↔
        opts.maxNodes ≠ n.visits.length) ∧
      ∀ src root, Cst.lowerDeep src root = .ok n → ∀ m, n.Reaches m → ∃ p ∈ n.visits, p.node = m := by
  obtain ⟨lines, hlines, rfl⟩ := dump_of_draw h
  have houtline : (n.outline none).length = n.visits.length := by
    rw [← map_place_outline none n, List.length_map]
  have hroot : 0 < n.visits.length := by simp [Node.visits_eq n]
  have hlength : lines.length = min n.visits.length opts.maxNodes.toNat := by
    rw [length_of_mapM hlines, List.length_take, houtline, Nat.min_comm]
  have hmarked : opts.maxNodes ≤ lines.length ↔ opts.maxNodes ≤ n.visits.length := by omega
  refine ⟨lines, hlines, hlength, ?_, by omega, by omega, fun src root hlower m hm => ?_⟩
  · simp only [hmarked]
  · rw [Cst.lowerDeep_eq_lower] at hlower
    exact mem_visits_of_reaches (Cst.lower_conforming hlower) hm

/-! ### A limit that is met exactly -/

/-- A program of one name. -/
def lone : Node :=
  .program (.items [.plain "expression_statement" (.items [.ident "x"])])

/-- The dump shows all three nodes and says that it was cut. -/
theorem dump_marked_lone : ∃ lines : List Text,
    lone.dump 9 { maxNodes := 3 } = .ok (lines ++ [Text.ofString "  … (truncated at 3 nodes)"]) ∧
      lines.length = 3 ∧ lone.visits.length = 3 := by
  have hnodes : lone.visits.length = 3 := by
    obtain ⟨out, hout, hthree⟩ : ∃ out, lone.dump 9 = .ok out ∧ out.length = 3 := ⟨_, rfl, rfl⟩
    obtain ⟨lines, -, hlength, rfl, -⟩ := dump_marked_at_limit hout
    rw [List.length_append] at hthree
    dsimp only at hlength hthree
    split at hthree <;> simp only [List.length_cons, List.length_nil] at hthree <;> omega
  obtain ⟨out, hout⟩ : ∃ out, lone.dump 9 { maxNodes := 3 } = .ok out := ⟨_, rfl⟩
  obtain ⟨lines, -, hlength, rfl, -⟩ := dump_marked_at_limit hout
  rw [hnodes] at hlength hout
  exact ⟨lines, hout, hlength, hnodes⟩

end LazyLint.Ast
