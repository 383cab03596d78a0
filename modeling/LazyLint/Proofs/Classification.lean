import Mathlib.Data.List.Basic
import LazyLint.Proofs.Distinct
import LazyLint.Proofs.March

/-!
# When heavy modules are loaded

`classify` is a walk that carries a counter for the depth and two lists that are filled while it goes.
What it comes to is said here without any of the three, from `loads?`, which looks at one node only,
and from the nodes above a place. `eager?` and `deferred?` say what a single place contributes to
either list; `classify_eq_eraseDups` says that the lists are these contributions in pre-order, each
once.

The invariant of the walk is that both lists are free of repetitions because they are `eraseDups` of
everything met so far: this form is kept by one more site (`shown_visitor`) whether the specifier is
new or not, and a specifier may be met on both sides.
-/

namespace LazyLint.Import

open Ast (Placed Path)

/-! ## What a place contributes -/

/-- How a node loads a module and which one, wherever the node stands. -/
def loads? : Ast.Node → Option (Form × Text)
  | .importDecl (.string specifier) _ => some (.static, specifier)
  | .call (.ident name) (.items (.string specifier :: _)) =>
    if name = requireName then some (.require, specifier) else none
  | .call .importOp (.items (.string specifier :: _)) => some (.dynamic, specifier)
  | _ => none

/-- Whether a function is above a place. -/
def inFunction (p : Placed) : Bool :=
  p.above.any (·.opens Ast.functionKinds)

/-- The heavy specifier that a place loads when the module itself is loaded. -/
def eager? (deps : List Text) (p : Placed) : Option Text :=
  match loads? p.node with
  | some (.static, s) | some (.require, s) =>
    if ! inFunction p && Dependency.isHeavy deps s then some s else none
  | _ => none

/-- The heavy specifier that a place loads later on. An import declaration inside a function is on
neither side. -/
def deferred? (deps : List Text) (p : Placed) : Option Text :=
  match loads? p.node with
  | some (.dynamic, s) => if Dependency.isHeavy deps s then some s else none
  | some (.require, s) => if inFunction p && Dependency.isHeavy deps s then some s else none
  | _ => none

section Place

variable {deps : List Text} {p : Placed} {s : Text}

theorem inFunction_eq_false_iff :
    inFunction p = false ↔ ∀ a ∈ p.above, a.opens Ast.functionKinds = false := by
  simp [inFunction]

theorem inFunction_eq_true_iff :
    inFunction p = true ↔ ∃ a ∈ p.above, a.opens Ast.functionKinds = true := by
  simp [inFunction]

theorem depth_pos_iff : 0 < p.depth Ast.functionKinds ↔ inFunction p = true := by
  rw [Placed.depth, List.countP_pos_iff, inFunction_eq_true_iff]

theorem eager?_eq_some_iff : eager? deps p = some s ↔
    Dependency.isHeavy deps s = true ∧ inFunction p = false ∧
      (loads? p.node = some (.static, s) ∨ loads? p.node = some (.require, s)) := by
  unfold eager?
  rcases loads? p.node with _ | ⟨form, t⟩
  · simp
  · cases form <;> simp <;> grind

theorem deferred?_eq_some_iff : deferred? deps p = some s ↔
    Dependency.isHeavy deps s = true ∧
      (loads? p.node = some (.dynamic, s) ∨
        loads? p.node = some (.require, s) ∧ inFunction p = true) := by
  unfold deferred?
  rcases loads? p.node with _ | ⟨form, t⟩
  · simp
  · cases form <;> simp <;> grind

/-- The site at a place: what the node loads, unless it is an import declaration in a function. -/
theorem site?_eq (n : Ast.Node) (depth : Nat) : site? n depth =
    match loads? n with
    | some (form, specifier) =>
      if form = .static ∧ 0 < depth then none else some { specifier, depth, form }
    | none => none := by
  unfold site? loads?
  split
  · by_cases hd : depth = 0 <;> simp [hd]
  · split <;> simp [*]
  · rfl
  · simp [*]

/-- A node that may or may not be a site loads nothing. -/
theorem loads?_of_siteFault {n : Ast.Node} {f : Ast.Fault} (h : siteFault? n = some f) :
    loads? n = none := by
  unfold loads?
  split
  · cases h
  · cases h
  · cases h
  · rfl

/-- Of a node whose fields can be gone through it can be told whether it is a site. -/
theorem siteFault?_of_parts {n : Ast.Node} {ms : List Ast.Node} (h : n.parts? = .ok ms) :
    siteFault? n = none := by
  cases n with
  | call callee args =>
    cases args with
    | items values => rfl
    | atom type truthy =>
      cases truthy with
      | false => rfl
      | true => cases h
    | _ => cases h
  | _ => rfl

/-- What the visitor makes of its state depends on the site alone. -/
theorem visitor_state (deps : List Text) (n : Ast.Node) (depth : Nat) (c : Classification) :
    (visitor deps n depth c).1 = match site? n depth with
      | some s => if Dependency.isHeavy deps s.specifier then c.record s else c
      | none => c := by
  unfold visitor
  cases hf : siteFault? n with
  | none => cases site? n depth <;> rfl
  | some f => rw [site?_eq, loads?_of_siteFault hf]

theorem visitor_none {n : Ast.Node} (h : siteFault? n = none) (deps : List Text) (depth : Nat)
    (c : Classification) : (visitor deps n depth c).2 = none := by
  unfold visitor
  rw [h]
  cases site? n depth <;> rfl

/-- The visitor stops at no node of a sound tree. -/
theorem visitor_of_sound {tree : Ast.Node} (h : tree.Sound) (deps : List Text) :
    ∀ p ∈ tree.visits, ∀ depth c, (visitor deps p.node depth c).2 = none := by
  intro p hp depth c
  obtain ⟨-, ms, hms⟩ := h p hp
  exact visitor_none (siteFault?_of_parts hms) deps depth c

end Place

/-! ## The walk -/

section Walk

variable (deps : List Text)

/-- One place adds its contributions to what was met so far. -/
theorem shown_visitor (ts ls : List Text) (p : Placed) :
    Ast.shown (visitor deps) {} { topLevel := ts.eraseDups, lazy := ls.eraseDups } p =
      { topLevel := (ts ++ (eager? deps p).toList).eraseDups
        lazy := (ls ++ (deferred? deps p).toList).eraseDups } := by
  rw [Ast.shown, Nat.zero_add, visitor_state, site?_eq, eager?, deferred?]
  rcases loads? p.node with _ | ⟨form, specifier⟩
  · simp
  · have hdepth : inFunction p = decide (0 < p.depth Ast.functionKinds) := by
      rw [Bool.eq_iff_iff, decide_eq_true_iff, depth_pos_iff]
    rw [hdepth]
    by_cases hpos : 0 < p.depth Ast.functionKinds <;>
      by_cases hheavy : Dependency.isHeavy deps specifier = true <;> cases form <;>
        simp [hpos, hheavy, Classification.record, remember_eraseDups]

theorem foldl_visitor (ts ls : List Text) (ps : List Placed) :
    ps.foldl (Ast.shown (visitor deps) {}) { topLevel := ts.eraseDups, lazy := ls.eraseDups } =
      { topLevel := (ts ++ ps.filterMap (eager? deps)).eraseDups
        lazy := (ls ++ ps.filterMap (deferred? deps)).eraseDups } := by
  induction ps generalizing ts ls with
  | nil => simp
  | cons p ps ih =>
    rw [List.foldl_cons, shown_visitor, ih, List.append_assoc, List.append_assoc]
    simp only [List.filterMap_eq_flatMap_toList, List.flatMap_cons]

theorem classify_eq {room : Nat} {deps : List Text} {tree : Ast.Node}
    (h : (Ast.walk (visitor deps) room tree {} {}).halt = none) :
    classify room deps tree = .ok
      { topLevel := (tree.visits.filterMap (eager? deps)).eraseDups
        lazy := (tree.visits.filterMap (deferred? deps)).eraseDups } := by
  have hfold := foldl_visitor deps [] [] tree.visits
  rw [List.eraseDups_nil, List.nil_append, List.nil_append] at hfold
  rw [classify, Ast.walk_eq_foldl h, ← hfold]

end Walk

theorem mem_eager_iff {deps : List Text} {tree : Ast.Node} {s : Text} :
    s ∈ (tree.visits.filterMap (eager? deps)).eraseDups ↔
      Dependency.isHeavy deps s = true ∧ ∃ above n, Path tree above n ∧
        (∀ a ∈ above, a.opens Ast.functionKinds = false) ∧
        (loads? n = some (.static, s) ∨ loads? n = some (.require, s)) := by
  rw [List.mem_eraseDups, List.mem_filterMap]
  constructor
  · rintro ⟨p, hp, hs⟩
    obtain ⟨hheavy, hin, hload⟩ := eager?_eq_some_iff.1 hs
    exact ⟨hheavy, p.above, p.node, Ast.mem_visits_iff.1 hp, inFunction_eq_false_iff.1 hin, hload⟩
  · rintro ⟨hheavy, above, n, hp, hin, hload⟩
    refine ⟨⟨above, n⟩, Ast.mem_visits_iff.2 hp, eager?_eq_some_iff.2 ⟨hheavy, ?_, hload⟩⟩
    exact inFunction_eq_false_iff.2 hin

theorem mem_deferred_iff {deps : List Text} {tree : Ast.Node} {s : Text} :
    s ∈ (tree.visits.filterMap (deferred? deps)).eraseDups ↔
      Dependency.isHeavy deps s = true ∧ ∃ above n, Path tree above n ∧
        (loads? n = some (.dynamic, s) ∨
          loads? n = some (.require, s) ∧ ∃ a ∈ above, a.opens Ast.functionKinds = true) := by
  rw [List.mem_eraseDups, List.mem_filterMap]
  constructor
  · rintro ⟨p, hp, hs⟩
    obtain ⟨hheavy, hload⟩ := deferred?_eq_some_iff.1 hs
    rw [inFunction_eq_true_iff] at hload
    exact ⟨hheavy, p.above, p.node, Ast.mem_visits_iff.1 hp, hload⟩
  · rintro ⟨hheavy, above, n, hp, hload⟩
    refine ⟨⟨above, n⟩, Ast.mem_visits_iff.2 hp, deferred?_eq_some_iff.2 ⟨hheavy, ?_⟩⟩
    rwa [inFunction_eq_true_iff]

/-- What a tree loads, said without the walk. A walk over the tree that comes to its end has sorted its
heavy imports by the places where they stand: the lists hold the contributions of the places in
pre-order, the first of each specifier, an import declaration inside a function contributes nothing,
and a specifier is loaded with the module if and only if a path on which no function stands leads to
an import declaration or a call of `require` with it. -/
theorem classify_eq_eraseDups {room : Nat} {deps : List Text} {tree : Ast.Node}
    (h : (Ast.walk (visitor deps) room tree {} {}).halt = none) :
    ∃ c, classify room deps tree = .ok c ∧
      c.topLevel = (tree.visits.filterMap (eager? deps)).eraseDups ∧
      c.lazy = (tree.visits.filterMap (deferred? deps)).eraseDups ∧
      c.topLevel.Nodup ∧ c.lazy.Nodup ∧
      (∀ p s, loads? p.node = some (.static, s) → inFunction p = true →
        eager? deps p = none ∧ deferred? deps p = none) ∧
      (∀ s, s ∈ c.topLevel ↔ Dependency.isHeavy deps s = true ∧ ∃ above n, Path tree above n ∧
        (∀ a ∈ above, a.opens Ast.functionKinds = false) ∧
        (loads? n = some (.static, s) ∨ loads? n = some (.require, s))) ∧
      (∀ s, s ∈ c.lazy ↔ Dependency.isHeavy deps s = true ∧ ∃ above n, Path tree above n ∧
        (loads? n = some (.dynamic, s) ∨
          loads? n = some (.require, s) ∧ ∃ a ∈ above, a.opens Ast.functionKinds = true)) := by
  refine ⟨_, classify_eq h, rfl, rfl, nodup_eraseDups _, nodup_eraseDups _, ?_, ?_, ?_⟩
  · intro p s hload hin
    simp [eager?, deferred?, hload, hin]
  · exact fun _ => mem_eager_iff
  · exact fun _ => mem_deferred_iff

/-! ### A module with every form of import -/

/-- The call of some callee with a string. -/
def load (callee : Ast.Node) (specifier : String) : Ast.Node :=
  .call callee (.items [.string (Text.ofString specifier)])

/-- Two specifiers are loaded at the top level and again by a dynamic import or inside a function,
where a declaration of a third one loads nothing. -/
def mixedModule : Ast.Node :=
  .program (.items
    [load (.ident requireName) "vue",
     .importDecl (.string (Text.ofString "react")) .absent,
     load .importOp "vue",
     .function "arrow_function" .absent (.items [])
      (.plain "statement_block" (.items
        [load (.ident requireName) "react", load (.ident requireName) "vue",
         .importDecl (.string (Text.ofString "axios")) .absent])),
     load (.ident requireName) "vue"])

theorem classify_mixedModule :
    let both := [Text.ofString "vue", Text.ofString "react"]
    classify 9 Dependency.defaults mixedModule = .ok { topLevel := both, lazy := both } ∧
      (mixedModule.visits.filterMap (eager? Dependency.defaults)).eraseDups = both ∧
      (mixedModule.visits.filterMap (deferred? Dependency.defaults)).eraseDups = both := by
  intro both
  have hwalk : (Ast.walk (visitor Dependency.defaults) 9 mixedModule {} {}).halt = none := rfl
  have hrun : classify 9 Dependency.defaults mixedModule = .ok { topLevel := both, lazy := both } :=
    rfl
  obtain ⟨c, hc, htop, hlazy, -⟩ := classify_eq_eraseDups hwalk
  obtain rfl := Except.ok.inj (hc.symm.trans hrun)
  exact ⟨hrun, htop.symm, hlazy.symm⟩

end LazyLint.Import
