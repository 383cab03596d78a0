import LazyLint.Builtin
import LazyLint.Linter
import LazyLint.Proofs.Classification
import LazyLint.Proofs.Configuration
import LazyLint.Proofs.March
import LazyLint.Proofs.Segments

/-!
# More heavy names

What becomes of a module if more names are heavy? Its tree is walked once with either list of names, and
the two walks go side by side: at every node, what the walk for the shorter list has recorded is what the
other has recorded, without the specifiers that are not heavy for the shorter list (`visitor_only`). This
holds at the end because it holds at every step (`walk_map`), wherever the walks end and whatever was
recorded before. So names that are added to a list only insert specifiers, and the diagnostics on a source
stay where they are when the environment adds names.
-/

namespace LazyLint

/-! ## Two walks side by side -/

namespace Ast

variable {σ τ ε : Type}

/-- The same end of a walk, with something made of its state. -/
def Walked.map (f : σ → τ) (w : Walked σ ε) : Walked τ ε where
  scope := w.scope
  state := f w.state
  halt := w.halt

section Map

variable {f : σ → τ} {visit : Visitor σ ε} {image : Visitor τ ε}
  (h : ∀ n depth state,
    image n depth (f state) = (f (visit n depth state).1, (visit n depth state).2))
include h

theorem meet_map (room : Nat) (scope : Scope) (p : Placed) (state : σ) :
    p.meet image room scope (f state) =
      (f (p.meet visit room scope state).1, (p.meet visit room scope state).2) := by
  by_cases hroom : room ≤ p.above.length
  · rw [meet_deep hroom, meet_deep hroom]
  · rw [meet_shown hroom, meet_shown hroom, h]

theorem march_map (room : Nat) (scope : Scope) (stops : List Stop) (state : σ) :
    march image room scope stops (f state) = (march visit room scope stops state).map f := by
  induction stops generalizing state with
  | nil => rfl
  | cons s stops ih =>
    cases s with
    | fault f => rfl
    | node p =>
      have hmeet := meet_map h room scope p state
      cases hcut : (p.meet visit room scope state).2 with
      | some cut =>
        rw [march_stop hcut, march_stop ((congrArg Prod.snd hmeet).trans hcut), hmeet]
        rfl
      | none =>
        rw [march_next hcut, march_next ((congrArg Prod.snd hmeet).trans hcut), hmeet, ih]

/-- A visitor that keeps an image of what another one keeps does so over a whole walk. -/
theorem walk_map (room : Nat) (n : Node) (scope : Scope) (state : σ) :
    walk image room n scope (f state) = (walk visit room n scope state).map f := by
  rw [walk_eq_march, walk_eq_march, march_map h]

end Map

end Ast

/-! ## More names for a tree -/

theorem Dependency.isHeavy_of_subset {few all : List Text} {s : Text} (h : few ⊆ all)
    (hs : isHeavy few s = true) : isHeavy all s = true := by
  obtain ⟨dep, hdep, hmatch⟩ := isHeavy_iff.1 hs
  exact isHeavy_iff.2 ⟨dep, h hdep, hmatch⟩

namespace Import

open Dependency (isHeavy isHeavy_of_subset)

/-- The part of a classification with the specifiers that are kept. -/
def Classification.only (keep : Text → Bool) (c : Classification) : Classification where
  topLevel := c.topLevel.filter keep
  lazy := c.lazy.filter keep

section Only

variable (keep : Text → Bool)

theorem filter_remember (ts : List Text) (t : Text) :
    (remember ts t).filter keep =
      if keep t then remember (ts.filter keep) t else ts.filter keep := by
  unfold remember
  by_cases hkeep : keep t = true
  · -- What is kept has been met before the filter if and only if it has been behind it.
    have hcontains : (ts.filter keep).contains t = ts.contains t := by
      rw [Bool.eq_iff_iff, List.contains_iff_mem, List.contains_iff_mem, List.mem_filter]
      exact and_iff_left hkeep
    rw [if_pos hkeep, hcontains]
    split
    · rfl
    · rw [List.filter_append, List.filter_cons_of_pos hkeep, List.filter_nil]
  · rw [if_neg hkeep]
    split
    · rfl
    · rw [List.filter_append, List.filter_cons_of_neg hkeep, List.filter_nil, List.append_nil]

theorem only_record (c : Classification) (s : Site) :
    (c.record s).only keep =
      if keep s.specifier then (c.only keep).record s else c.only keep := by
  unfold Classification.record
  split
  · simp only [Classification.only, filter_remember]
    split <;> rfl
  · simp only [Classification.only, filter_remember]
    split <;> rfl

end Only

section Subset

variable {few all : List Text} (h : few ⊆ all)
include h

/-- One node keeps the two walks side by side. -/
theorem visitor_only (n : Ast.Node) (depth : Nat) (c : Classification) :
    visitor few n depth (c.only (isHeavy few)) =
      ((visitor all n depth c).1.only (isHeavy few), (visitor all n depth c).2) := by
  unfold visitor
  cases siteFault? n with
  | some f => rfl
  | none =>
    cases site? n depth with
    | none => rfl
    | some s =>
      dsimp only
      by_cases hfew : isHeavy few s.specifier = true
      · rw [if_pos hfew, if_pos (isHeavy_of_subset h hfew), only_record, if_pos hfew]
      · -- What is not heavy for the shorter list may have been recorded for the other, and is dropped.
        rw [if_neg hfew]
        split
        · rw [only_record, if_neg hfew]
        · rfl

/-- For fewer names, a tree is classified as for more, without what is not heavy for the fewer. -/
theorem classify_of_subset (room : Nat) (tree : Ast.Node) :
    classify room few tree = (classify room all tree).map (·.only (isHeavy few)) := by
  have hwalk : Ast.walk (visitor few) room tree {} {} =
      (Ast.walk (visitor all) room tree {} {}).map (·.only (isHeavy few)) :=
    Ast.walk_map (visitor_only h) room tree {} {}
  unfold classify
  rw [hwalk]
  dsimp only [Ast.Walked.map]
  cases (Ast.walk (visitor all) room tree {} {}).halt with
  | none => rfl
  | some cut => rfl

end Subset

/-- Neither the order of the names nor how often one of them is there counts. -/
theorem classify_congr {few same : List Text} (h : ∀ name, name ∈ same ↔ name ∈ few)
    (room : Nat) (tree : Ast.Node) : classify room same tree = classify room few tree := by
  have hheavy : isHeavy same = isHeavy few := by
    funext s
    rw [Bool.eq_iff_iff]
    constructor
    · exact isHeavy_of_subset fun name hname => (h name).1 hname
    · exact isHeavy_of_subset fun name hname => (h name).2 hname
  have hvisitor : visitor same = visitor few := by
    unfold visitor
    rw [hheavy]
  rw [classify, classify, hvisitor]

end Import

/-! ## More names for a linter -/

namespace Linter

open Import (classify_of_subset)

section Found

variable {e : Engine} {l m : Linter} {file source : Text} {ds : List Diagnostic}
  (hdeps : l.config.deps ⊆ m.config.deps) (hseverity : l.config.severity = m.config.severity)
include hdeps hseverity

theorem check_keeps {room : Nat} (tree : Ast.Node) (logs : List Log.Record)
    (h : (l.check room file tree logs).found = .ok ds) :
    ∃ more, (m.check room file tree logs).found = .ok more ∧ ds.Sublist more := by
  unfold check at h ⊢
  rw [classify_of_subset hdeps] at h
  cases hall : Import.classify room m.config.deps tree with
  | ok c =>
    rw [hall] at h
    cases h
    refine ⟨_, rfl, ?_⟩
    rw [hseverity]
    exact List.filter_sublist.map _
  | error cut =>
    rw [hall] at h
    dsimp only [Except.map] at h
    split at h
    · rename_i heq
      cases heq
    · rename_i heq
      cases heq
      cases h
      exact ⟨_, rfl, List.nil_sublist _⟩
    · cases h

/-- The diagnostics on a source stay, in their order, where more names are heavy. -/
theorem lint_keeps (henabled : l.config.enabled = m.config.enabled)
    (h : (l.lint e file source).found = .ok ds) :
    ∃ more, (m.lint e file source).found = .ok more ∧ ds.Sublist more := by
  unfold lint at h ⊢
  rw [henabled] at h
  split at h
  · rename_i hoff
    rw [if_pos hoff]
    exact ⟨ds, h, .refl _⟩
  · rename_i hon
    rw [if_neg hon]
    rcases hparse : Parse.parse e source with ⟨logs, parsed⟩
    rw [hparse] at h
    cases parsed with
    | ok tree => exact check_keeps hdeps hseverity tree logs h
    | error f =>
      cases f with
      | escape f => cases h
      | refused goal why => exact ⟨ds, h, .refl _⟩

end Found

end Linter

/-! ## More names from the environment -/

namespace Config

/-- Names that the environment adds leave the switch, the severity and the names as they would be without
them. -/
theorem withEnvironment_of_unset {c after : Config} {env wider : Environment}
    (hunset : setting? env dependenciesVariable = none)
    (hseverity : setting? wider severityVariable = setting? env severityVariable)
    (h : c.withEnvironment wider = .ok after) :
    c.withEnvironment env = .ok { after with deps := c.deps } ∧ c.deps ⊆ after.deps := by
  obtain ⟨henabled, hsame, hnames⟩ := withEnvironment_eq_ok_iff.1 h
  refine ⟨withEnvironment_eq_ok_iff.2 ⟨henabled, ?_, ?_⟩, ?_⟩
  · rw [← hsame, severityUnder, severityUnder, hseverity]
  · exact namesUnder_eq_ok_iff.2 (.inl ⟨hunset, rfl⟩)
  · rcases namesUnder_eq_ok_iff.1 hnames with ⟨-, hdeps⟩ | ⟨-, hchecked⟩
    · rw [hdeps]
      exact List.Subset.refl _
    · obtain ⟨-, hdeps⟩ := checkNames_eq_ok_iff.1 hchecked
      intro name hname
      rw [hdeps, List.mem_eraseDups]
      exact List.mem_append_left _ hname

end Config

section Inserts

open Import (classify visitor)
open Config (setting? severityVariable dependenciesVariable)

/-- More heavy names only insert. Of a tree whose walk comes to its end, either list for some names is the
list for these and others, without what is not heavy for the first, in the same order; it is the same for
all lists of the same names. So names that an environment adds, if they are accepted, leave every
diagnostic on a source where it was among the others. -/
theorem widening_only_inserts (e : Engine) (names more : List Text) :
    (∀ room tree, (Ast.walk (visitor names) room tree {} {}).halt = none →
      ∃ few all, classify room names tree = .ok few ∧ classify room (names ++ more) tree = .ok all ∧
        few.topLevel = all.topLevel.filter (Dependency.isHeavy names) ∧
        few.lazy = all.lazy.filter (Dependency.isHeavy names) ∧
        few.topLevel.Sublist all.topLevel ∧ few.lazy.Sublist all.lazy) ∧
    (∀ same, (∀ name, name ∈ same ↔ name ∈ names) →
      ∀ room tree, classify room same tree = classify room names tree) ∧
    ∀ (c after : Config) (env wider : Config.Environment),
      setting? env dependenciesVariable = none →
      setting? wider severityVariable = setting? env severityVariable →
      c.withEnvironment wider = .ok after →
        ∃ before, c.withEnvironment env = .ok before ∧
          ∀ (l m : Linter) (file source : Text) (ds : List Diagnostic),
            l.config = before → m.config = after → (l.lint e file source).found = .ok ds →
              ∃ ds', (m.lint e file source).found = .ok ds' ∧ ds.Sublist ds' := by
  refine ⟨fun room tree hwalk => ?_, fun same hsame => Import.classify_congr hsame, ?_⟩
  · have hfew := Import.classify_eq hwalk
    rw [Import.classify_of_subset (List.subset_append_left names more)] at hfew
    cases hall : classify room (names ++ more) tree with
    | error cut =>
      rw [hall] at hfew
      cases hfew
    | ok all =>
      refine ⟨all.only (Dependency.isHeavy names), all, ?_, rfl, rfl, rfl, ?_, ?_⟩
      · rw [Import.classify_of_subset (List.subset_append_left names more), hall]
        rfl
      · exact List.filter_sublist
      · exact List.filter_sublist
  · intro c after env wider hunset hseverity hafter
    obtain ⟨hbefore, hdeps⟩ := Config.withEnvironment_of_unset hunset hseverity hafter
    refine ⟨_, hbefore, ?_⟩
    rintro l m file source ds hl rfl hds
    exact Linter.lint_keeps (by rw [hl]; exact hdeps) (by rw [hl]) (by rw [hl]) hds

end Inserts

/-! ### A name that is added before another one -/

def vue : List Text := [Text.ofString "vue"]
def react : List Text := [Text.ofString "react"]
def leftPad : Text := Text.ofString "left-pad"

/-- The built-in configuration where the environment adds a name. -/
def withLeftPad : Config where
  deps := Dependency.defaults ++ [leftPad]

def leftPadFirst : Text := Text.ofString "import'left-pad';import'vue'"

theorem found_leftPadFirst : (({} : Linter).lint .builtin [] leftPadFirst).found =
    .ok (Diagnostic.emit vue [] .warning) := by
  have hsome : (({} : Linter).lint .builtin [] leftPadFirst).found.toOption =
      some (Diagnostic.emit vue [] .warning) := by
    decide +kernel
  cases hfound : (({} : Linter).lint .builtin [] leftPadFirst).found with
  | error f =>
    rw [hfound] at hsome
    cases hsome
  | ok ds =>
    rw [hfound] at hsome
    rw [Option.some.inj hsome]

theorem widening_leftPad :
    (∃ few all, Import.classify 9 react Import.mixedModule = .ok few ∧
      Import.classify 9 (react ++ vue) Import.mixedModule = .ok all ∧
      all.topLevel = vue ++ react ∧ few.topLevel = react ∧ few.lazy.Sublist all.lazy) ∧
    Import.classify 9 (react ++ react) Import.mixedModule = Import.classify 9 react Import.mixedModule ∧
    ∃ ds, (({ config := withLeftPad } : Linter).lint .builtin [] leftPadFirst).found = .ok ds ∧
      (Diagnostic.emit vue [] .warning).Sublist ds := by
  obtain ⟨htree, hsame, hlint⟩ := widening_only_inserts .builtin react vue
  refine ⟨?_, hsame (react ++ react) (by simp) 9 Import.mixedModule, ?_⟩
  · obtain ⟨few, all, hfew, hall, htop, -, -, hlazy⟩ := htree 9 Import.mixedModule rfl
    have hboth : Import.classify 9 (react ++ vue) Import.mixedModule =
        .ok { topLevel := vue ++ react, lazy := vue ++ react } := rfl
    cases hall.symm.trans hboth
    exact ⟨few, _, hfew, hall, rfl, htop, hlazy⟩
  · obtain ⟨before, hbefore, hkeeps⟩ := hlint {} withLeftPad []
      [(Text.ofString Config.dependenciesVariable, leftPad)] rfl rfl rfl
    cases hbefore
    exact hkeeps {} { config := withLeftPad } [] leftPadFirst _ rfl rfl found_leftPadFirst

end LazyLint
