import LazyLint.Builtin
import LazyLint.Proofs.Batches
import LazyLint.Proofs.Classification
import LazyLint.Proofs.Goals
import LazyLint.Proofs.Schema
import LazyLint.Proofs.Sources

/-!
# What one file can do to a run

A linter catches what it expects of a file: a source that no parse goal accepts and a tree that is too
deep become failures of that file. One thing is left over. The number of an escape in braces has any
number of digits, and one that does not fit into thirty-two bits is a fault that nothing catches. It
stops the linter and with it the run over all other files; `isolated_unless_overflow` says that nothing
else does.

The parser is any that reads tokens (`Engine.ReadsTokens`): what it takes for an escape has one of the
forms that the grammar gives to escapes. The parser of the library is one (`readsTokens_builtin`).
-/

namespace LazyLint

/-! ## Parsing -/

namespace Parse

/-- Whether a source is read for some goal. -/
def IsAccepted (e : Engine) (source : Text) : Prop :=
  ∃ goal : Cst.Goal, goal.refusal? (concrete e source) = none

end Parse

/-- What is relied on of a parser: in a tree that some goal accepts, the escapes are tokens of the
grammar. -/
def Engine.ReadsTokens (e : Engine) : Prop :=
  ∀ source, Parse.IsAccepted e source → Script.Faithful (Parse.bytes source) (Parse.concrete e source)

theorem readsTokens_builtin : Engine.builtin.ReadsTokens :=
  fun source _ => Script.read_faithful source.toChars

namespace Parse

variable {e : Engine} {source : Text}

/-- A source that some goal accepts is lowered, whichever goal it is. -/
theorem parse_of_accepted (h : IsAccepted e source) :
    (parse e source).2 = (Cst.lower (bytes source) (concrete e source)).mapError .escape := by
  obtain ⟨goal, hgoal⟩ := h
  exact lowerEither_of_accepted hgoal

theorem parse_of_refused (h : ¬ IsAccepted e source) :
    ∃ why, (parse e source).2 = .error (.refused .script why) := by
  have hne : ∀ goal : Cst.Goal, goal.refusal? (concrete e source) ≠ none := fun goal hnone =>
    h ⟨goal, hnone⟩
  obtain ⟨why, hwhy⟩ := (lowerFor_refused_iff .script (bytes source) _).2 (hne .script)
  exact ⟨why, (lowerEither_of_refused (hne .module)).trans hwhy⟩

/-- The escapes that lowering comes by are tokens of the grammar. -/
theorem covers_of_escapesRead (htokens : e.ReadsTokens) (h : IsAccepted e source) {n : Cst.Node}
    (hn : n ∈ Cst.escapesRead (bytes source) (concrete e source)) :
    Script.CoversEscape (bytes source) n := by
  obtain ⟨m, hm, hn⟩ := List.mem_flatMap.1 hn
  have hfaithful : Script.Faithful (bytes source) m :=
    Cst.of_asked (fun _ => Script.allFaithful_children) (htokens source h) m hm
  unfold Cst.Node.escapes at hn
  split at hn
  · obtain ⟨hchild, hescape⟩ := List.mem_filter.1 hn
    have hkind : n.kind = "escape_sequence" := by
      simp only [Cst.Node.isEscape, Bool.and_eq_true, decide_eq_true_eq] at hescape
      exact hescape.2
    exact (Script.faithful_iff.1 (Script.allFaithful_children hfaithful n hchild)).1 hkind
  · cases hn

/-- Lowering fails on the numbers that overflow, and on nothing else. -/
theorem lower_error_iff (htokens : e.ReadsTokens) (h : IsAccepted e source) {f : Escape.Fault} :
    Cst.lower (bytes source) (concrete e source) = .error f ↔
      f = .overflow ∧ ∃ n ∈ Cst.escapesRead (bytes source) (concrete e source),
        Escape.Overflows (n.text (bytes source)) := by
  have hdecode : ∀ n ∈ Cst.escapesRead (bytes source) (concrete e source), ∀ g,
      Escape.decode (n.text (bytes source)) = .error g ↔
        g = .overflow ∧ Escape.Overflows (n.text (bytes source)) := by
    intro n hn g
    obtain ⟨cs, hcs, htext⟩ := covers_of_escapesRead htokens h hn
    rw [htext, Escape.decode_error_iff hcs]
  rw [← fault?_eq_some_iff, Cst.fault?_lower_eq]
  constructor
  · intro h
    obtain ⟨n, hn, hf⟩ := List.exists_of_findSome?_eq_some h
    obtain ⟨rfl, hoverflow⟩ := (hdecode n hn f).1 (fault?_eq_some_iff.1 hf)
    exact ⟨rfl, n, hn, hoverflow⟩
  · rintro ⟨rfl, n, hn, hoverflow⟩
    have hsome : ((Cst.escapesRead (bytes source) (concrete e source)).findSome? fun n =>
        fault? (Escape.decode (n.text (bytes source)))).isSome = true := by
      refine List.findSome?_isSome_iff.2 ⟨n, hn, ?_⟩
      rw [(hdecode n hn .overflow).2 ⟨rfl, hoverflow⟩]
      rfl
    obtain ⟨g, hg⟩ := Option.isSome_iff_exists.1 hsome
    obtain ⟨m, hm, hf⟩ := List.exists_of_findSome?_eq_some hg
    rw [hg, ((hdecode m hm g).1 (fault?_eq_some_iff.1 hf)).1]

end Parse

/-! ## Linting -/

namespace Linter

variable {e : Engine} {l : Linter} {file : Text}

/-- What linting a file leaves when it returns: its diagnostics after those before, or one failure
after those before and no diagnostics. -/
inductive Returned (l : Linter) (file : Text) (r : Linted) : Prop
  | diagnosed (specifiers : List Text) (ds : List Diagnostic)
    (hds : ds = Diagnostic.emit specifiers file l.config.severity) (hfound : r.found = .ok ds)
    (hlinter : r.linter = { l with diagnostics := l.diagnostics ++ ds })
  | failed (message : Text) (hfound : r.found = .ok []) (hlinter : r.linter = l.fail file message)

/-- The walk over a lowered tree comes to its end, or the tree is too deep. -/
theorem classify_lowered {src : List UInt8} {root : Cst.Node} {tree : Ast.Node}
    (ht : Cst.lower src root = .ok tree) (room : Nat) (deps : List Text) :
    (∃ c, Import.classify room deps tree = .ok c) ∨
      Import.classify room deps tree = .error (.tree .tooDeep) := by
  have hsound := Cst.lower_sound ht
  unfold Import.classify
  dsimp only
  rcases Ast.walk_halt (Import.visitor_of_sound hsound deps) hsound room {} {} with h | ⟨h, -⟩
  · rw [h]
    exact .inl ⟨_, rfl⟩
  · rw [h]
    exact .inr rfl

theorem check_returned {src : List UInt8} {root : Cst.Node} {tree : Ast.Node}
    (ht : Cst.lower src root = .ok tree) (room : Nat) (logs : List Log.Record) :
    Returned l file (l.check room file tree logs) := by
  unfold check
  rcases classify_lowered ht room l.config.deps with ⟨c, hc⟩ | hdeep
  · rw [hc]
    exact .diagnosed _ _ rfl rfl rfl
  · rw [hdeep]
    exact .failed _ rfl rfl

/-- An accepted source is lowered; if that fails, the linter is left as it was. -/
theorem lint_of_fault (file : Text) {source : Text} {f : Escape.Fault}
    (henabled : l.config.enabled = true) (haccepted : Parse.IsAccepted e source)
    (hf : Cst.lower (Parse.bytes source) (Parse.concrete e source) = .error f) :
    (l.lint e file source).found = .error (.escape f) ∧ (l.lint e file source).linter = l := by
  have hparse := Parse.parse_of_accepted haccepted
  unfold lint
  rw [if_neg (by simp [henabled])]
  rcases hp : Parse.parse e source with ⟨logs, parsed⟩
  rw [hp, hf] at hparse
  obtain rfl : parsed = .error (.escape f) := hparse
  exact ⟨rfl, rfl⟩

/-- Linting returns where there is no such fault. -/
theorem lint_returned (file : Text) {source : Text}
    (h : l.config.enabled = true → Parse.IsAccepted e source →
      ∃ tree, Cst.lower (Parse.bytes source) (Parse.concrete e source) = .ok tree) :
    Returned l file (l.lint e file source) := by
  unfold lint
  cases henabled : l.config.enabled with
  | false => exact .diagnosed [] [] rfl rfl (by simp)
  | true =>
    rw [if_neg (by simp)]
    by_cases haccepted : Parse.IsAccepted e source
    · have hparse := Parse.parse_of_accepted haccepted
      obtain ⟨tree, htree⟩ := h henabled haccepted
      rcases hp : Parse.parse e source with ⟨logs, parsed⟩
      rw [hp, htree] at hparse
      obtain rfl : parsed = .ok tree := hparse
      exact check_returned htree e.room logs
    · obtain ⟨why, hparse⟩ := Parse.parse_of_refused haccepted
      rcases hp : Parse.parse e source with ⟨logs, parsed⟩
      rw [hp] at hparse
      obtain rfl : parsed = _ := hparse
      exact .failed _ rfl rfl

/-- Whether a source stops a linter: the rule is on, a goal accepts the source, and one of the escapes
that lowering comes by overflows. -/
def Stops (e : Engine) (config : Config) (source : Text) : Prop :=
  config.enabled = true ∧ Parse.IsAccepted e source ∧
    ∃ n ∈ Cst.escapesRead (Parse.bytes source) (Parse.concrete e source),
      Escape.Overflows (n.text (Parse.bytes source))

theorem lint_of_stops (htokens : e.ReadsTokens) (file : Text) {source : Text}
    (h : Stops e l.config source) :
    (l.lint e file source).found = .error (.escape .overflow) ∧ (l.lint e file source).linter = l := by
  obtain ⟨henabled, haccepted, hoverflow⟩ := h
  exact lint_of_fault file henabled haccepted
    ((Parse.lower_error_iff htokens haccepted).2 ⟨rfl, hoverflow⟩)

theorem lint_of_not_stops (htokens : e.ReadsTokens) (file : Text) {source : Text}
    (h : ¬ Stops e l.config source) : Returned l file (l.lint e file source) := by
  refine lint_returned file fun henabled haccepted => ?_
  cases hlower : Cst.lower (Parse.bytes source) (Parse.concrete e source) with
  | ok tree => exact ⟨tree, rfl⟩
  | error f =>
    exact absurd ⟨henabled, haccepted, ((Parse.lower_error_iff htokens haccepted).1 hlower).2⟩ h

end Linter

/-! ## Runs -/

namespace Batch

open Files (Tree)

variable {e : Engine} {tree : Tree} {config : Config} {path : Text} {bytes : List UInt8}

theorem alone_of_stops (htokens : e.ReadsTokens) (hread : tree.read path = .ok bytes)
    (h : Linter.Stops e config (Lines.decode bytes)) :
    alone e tree config path = .error (.escape .overflow) := by
  obtain ⟨hfound, -⟩ := Linter.lint_of_stops (l := { config }) htokens path h
  rw [alone, hread]
  dsimp only
  rw [hfound]
  rfl

theorem alone_of_not_stops (htokens : e.ReadsTokens)
    (h : ∀ bytes, tree.read path = .ok bytes → ¬ Linter.Stops e config (Lines.decode bytes)) :
    ∃ o, alone e tree config path = .ok o := by
  unfold alone
  cases hread : tree.read path with
  | error f => exact ⟨_, rfl⟩
  | ok bytes =>
    dsimp only
    cases Linter.lint_of_not_stops (l := { config }) htokens path (h bytes hread) with
    | diagnosed _ _ _ hfound _ =>
      rw [hfound]
      exact ⟨_, rfl⟩
    | failed _ hfound _ =>
      rw [hfound]
      exact ⟨_, rfl⟩

/-- The only fault that a file can have. -/
theorem fault_of_alone (htokens : e.ReadsTokens) {f : Linter.Fault}
    (h : alone e tree config path = .error f) : f = .escape .overflow := by
  by_cases hstops : ∃ bytes, tree.read path = .ok bytes ∧ Linter.Stops e config (Lines.decode bytes)
  · obtain ⟨bytes, hread, hstops⟩ := hstops
    rw [alone_of_stops htokens hread hstops] at h
    cases h
    rfl
  · obtain ⟨o, ho⟩ := alone_of_not_stops htokens fun bytes hread hs => hstops ⟨bytes, hread, hs⟩
    rw [ho] at h
    cases h

section Run

variable {targets paths : List Text} {s : Schedule}

/-- A run covers its files, read or not, if none of them stops its linter. -/
theorem lintPaths_of_not_stops (htokens : e.ReadsTokens)
    (hpaths : (Discovery.collect tree targets).2 = paths)
    (horder : (s.order paths.length).Perm (List.range paths.length))
    (h : ∀ path ∈ paths, ∀ bytes, tree.read path = .ok bytes →
      ¬ Linter.Stops e config (Lines.decode bytes)) :
    ∃ r, (lintPaths e tree targets config s).2 = .ok r ∧ r.files = paths.filter (isReadable tree) ∧
      r.readFailures = paths.filter fun path => ! isReadable tree path := by
  have hall : ∀ path, ∃ o, path ∈ paths → alone e tree config path = .ok o := by
    intro path
    by_cases hpath : path ∈ paths
    · obtain ⟨o, ho⟩ := alone_of_not_stops htokens (h path hpath)
      exact ⟨o, fun _ => ho⟩
    · exact ⟨{}, fun hmem => absurd hmem hpath⟩
  choose o ho using hall
  exact ⟨_, lintPaths_of_ok hpaths horder ho, rfl, rfl⟩

/-- One file that stops its linter stops the run. -/
theorem lintPaths_of_stops (htokens : e.ReadsTokens)
    (hpaths : (Discovery.collect tree targets).2 = paths)
    (horder : (s.order paths.length).Perm (List.range paths.length)) (hpath : path ∈ paths)
    (hread : tree.read path = .ok bytes) (h : Linter.Stops e config (Lines.decode bytes)) :
    (lintPaths e tree targets config s).2 = .error (.escape .overflow) := by
  obtain ⟨g, hg, p, -, hp⟩ := lintPaths_of_error hpaths horder hpath (alone_of_stops htokens hread h)
  rw [hg, fault_of_alone htokens hp]

/-- Files are isolated from one another but for one kind of source, whatever the parser that reads
tokens. Linting a file gives its diagnostics, or no diagnostics and one failure of this file, and a run
covers all its files, unless a source stops its linter by a number that overflows; such a source is a
fault of its own linting, which leaves the linter as it was, and of every run that it is part of. -/
theorem isolated_unless_overflow (htokens : e.ReadsTokens)
    (hpaths : (Discovery.collect tree targets).2 = paths)
    (horder : (s.order paths.length).Perm (List.range paths.length)) :
    (∀ (l : Linter) (file source : Text),
      (¬ Linter.Stops e l.config source → Linter.Returned l file (l.lint e file source)) ∧
      (Linter.Stops e l.config source →
        (l.lint e file source).found = .error (.escape .overflow) ∧
          (l.lint e file source).linter = l)) ∧
    ((∀ path ∈ paths, ∀ bytes, tree.read path = .ok bytes →
        ¬ Linter.Stops e config (Lines.decode bytes)) →
      ∃ r, (lintPaths e tree targets config s).2 = .ok r ∧
        r.files = paths.filter (isReadable tree) ∧
        r.readFailures = paths.filter fun path => ! isReadable tree path) ∧
    (∀ path ∈ paths, ∀ bytes, tree.read path = .ok bytes →
      Linter.Stops e config (Lines.decode bytes) →
        (lintPaths e tree targets config s).2 = .error (.escape .overflow)) := by
  refine ⟨fun l file source => ⟨Linter.lint_of_not_stops htokens file, Linter.lint_of_stops htokens file⟩,
    lintPaths_of_not_stops htokens hpaths horder, ?_⟩
  intro path hpath bytes hread hstops
  exact lintPaths_of_stops htokens hpaths horder hpath hread hstops

end Run

/-! ### A file with a number that overflows beside one without -/

def large : Text := Text.ofString "a.js"
def plain : Text := Text.ofString "b.js"

def largeBytes : List UInt8 := "'\\u\x7b80000000\x7d'".toUTF8.toList

def overflowTree : Tree where
  top := [(large, .file largeBytes), (plain, .file "require('vue')".toUTF8.toList)]

theorem overflows_large : Escape.Overflows (Escape.written "u\x7b80000000\x7d".toList) := by
  have hhex : "80000000".toList.all Script.isHexDigit = true := by decide
  exact ⟨"80000000".toList, rfl, by decide, List.all_eq_true.1 hhex, by decide⟩

theorem stops_large : Linter.Stops .builtin {} (Lines.decode largeBytes) := by
  have htexts : (Cst.escapesRead (Parse.bytes (Lines.decode largeBytes))
      (Parse.concrete .builtin (Lines.decode largeBytes))).map
        (·.text (Parse.bytes (Lines.decode largeBytes))) =
      [Escape.written "u\x7b80000000\x7d".toList] := by
    decide +kernel
  obtain ⟨n, hn, htext⟩ := List.mem_map.1 (htexts ▸ List.mem_singleton_self _)
  refine ⟨rfl, ⟨.module, by decide +kernel⟩, n, hn, ?_⟩
  rw [htext]
  exact overflows_large

theorem lintPaths_overflowTree :
    (lintPaths .builtin overflowTree [plain, large] {} {}).2 = .error (.escape .overflow) := by
  have hpaths : (Discovery.collect overflowTree [plain, large]).2 = [plain, large] := by
    decide +kernel
  have hread : overflowTree.read large = .ok largeBytes := by
    rfl
  exact (isolated_unless_overflow readsTokens_builtin hpaths (List.Perm.refl _)).2.2 large (by simp)
    largeBytes hread stops_large

end Batch

end LazyLint
