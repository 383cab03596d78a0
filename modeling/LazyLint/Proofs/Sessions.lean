import Mathlib.Data.List.DropRight
import Mathlib.Data.List.Nodup
import Mathlib.Data.List.Forall2
import LazyLint.Builtin
import LazyLint.Proofs.Classification
import LazyLint.Proofs.Linting

/-!
# Sessions of a linter

A linter is shown one source after another and is emptied from time to time. `Session` keeps, beside
the linter, every call that was made with what it returned. What the linter holds is then read off the
calls since the last reset: their diagnostics one after another, and one failure for each of them that
could not be looked into (`Session.Holds`).

`Holds` is kept by every call (`holds_step`), because what a call adds is known from its source alone:
`lint_linter` says what that is for every way in which linting can end. `course_unique` says that these
ways exclude each other.
-/

namespace LazyLint

namespace Diagnostic

theorem advice_injective : Function.Injective advice := by
  intro s t h
  unfold advice at h
  exact List.append_cancel_left (List.append_cancel_right h)

/-- Different specifiers have different diagnostics. -/
theorem nodup_emit {specifiers : List Text} (h : specifiers.Nodup) (file : Text)
    (severity : Severity) : (emit specifiers file severity).Nodup := by
  refine List.Nodup.map (fun s t hst => advice_injective ?_) h
  exact congrArg Diagnostic.message hst

end Diagnostic

theorem Import.topLevel_nodup {room : Nat} {deps : List Text} {tree : Ast.Node} {c : Classification}
    (h : classify room deps tree = .ok c) : c.topLevel.Nodup := by
  have hwalk : (Ast.walk (visitor deps) room tree {} {}).halt = none := by
    unfold classify at h
    dsimp only at h
    split at h
    · assumption
    · cases h
  rw [classify_eq hwalk] at h
  cases h
  exact nodup_eraseDups _

namespace Linter

/-! ## One source -/

/-- The failure of a source that no goal accepts or whose tree is too deep to be walked. -/
def failure? (e : Engine) (config : Config) (file source : Text) : Option ParseFailure :=
  if config.enabled then
    match (Parse.parse e source).2 with
    | .error (.refused _ why) => some { file, message := Text.ofString why.message }
    | .error (.escape _) => none
    | .ok tree =>
      match Import.classify e.room config.deps tree with
      | .error (.tree .tooDeep) => some { file, message := Text.ofString tooDeep }
      | _ => none
  else none

/-- The diagnostics that linting returned; none if a fault stopped it. -/
def diagnosticsOf (found : Except Fault (List Diagnostic)) : List Diagnostic :=
  found.toOption.getD []

/-- The ways in which linting a source can go. -/
inductive Course where
  /-- The rule is switched off. -/
  | skipped
  /-- The source cannot be looked into. -/
  | failed
  /-- The rule was applied to the source. -/
  | diagnosed
  /-- A fault that the linter does not catch. -/
  | stopped

/-- The diagnostics of a file stand for some specifiers, one for each and in their order. -/
structure Reports (config : Config) (file : Text) (specifiers : List Text) (ds : List Diagnostic) :
    Prop where
  inOrder : List.Forall₂ (fun s d => d.message = Diagnostic.advice s) specifiers ds
  file : ∀ d ∈ ds, d.file = file
  rule : ∀ d ∈ ds, d.rule = Text.ofString ruleName
  severity : ∀ d ∈ ds, d.severity = config.severity
  nodup : ds.Nodup

theorem reports_emit (config : Config) (file : Text) {specifiers : List Text}
    (h : specifiers.Nodup) :
    Reports config file specifiers (Diagnostic.emit specifiers file config.severity) where
  inOrder := by
    rw [Diagnostic.emit, List.forall₂_map_right_iff, List.forall₂_same]
    exact fun s _ => rfl
  file := by simp [Diagnostic.emit]
  rule := by simp [Diagnostic.emit]
  severity := by simp [Diagnostic.emit]
  nodup := Diagnostic.nodup_emit h file config.severity

section Step

variable (e : Engine) (l : Linter) (file source : Text)

/-- What linting a source does if it takes a course. -/
def Takes : Course → Prop
  | .skipped =>
    l.config.enabled = false ∧ (l.lint e file source).found = .ok [] ∧
      (l.lint e file source).linter = l
  | .failed => l.config.enabled = true ∧ ∃ p : ParseFailure,
      failure? e l.config file source = some p ∧ p.file = file ∧ (l.lint e file source).found = .ok [] ∧
      (l.lint e file source).linter = { l with failures := l.failures ++ [p] }
  | .diagnosed => l.config.enabled = true ∧ ∃ tree c ds,
      (Parse.parse e source).2 = .ok tree ∧ Import.classify e.room l.config.deps tree = .ok c ∧
      Reports l.config file c.topLevel ds ∧ (l.lint e file source).found = .ok ds ∧
      (l.lint e file source).linter = { l with diagnostics := l.diagnostics ++ ds }
  | .stopped => l.config.enabled = true ∧ failure? e l.config file source = none ∧
      ∃ f, (l.lint e file source).found = .error f ∧ (l.lint e file source).linter = l

variable {e l file source}

theorem takes_of_disabled (h : l.config.enabled = false) : l.Takes e file source .skipped :=
  ⟨h, by simp [lint, h], by simp [lint, h]⟩

theorem takes_of_refused (henabled : l.config.enabled = true) {goal : Cst.Goal} {why : Cst.Refusal}
    (h : (Parse.parse e source).2 = .error (.refused goal why)) : l.Takes e file source .failed := by
  refine ⟨henabled, { file, message := Text.ofString why.message },
    by simp [failure?, henabled, h], rfl, ?_⟩
  rcases hp : Parse.parse e source with ⟨logs, parsed⟩
  rw [hp] at h
  obtain rfl : parsed = _ := h
  simp [lint, henabled, hp, fail]

theorem takes_of_escape (henabled : l.config.enabled = true) {f : Escape.Fault}
    (h : (Parse.parse e source).2 = .error (.escape f)) : l.Takes e file source .stopped := by
  refine ⟨henabled, by simp [failure?, henabled, h], .escape f, ?_⟩
  rcases hp : Parse.parse e source with ⟨logs, parsed⟩
  rw [hp] at h
  obtain rfl : parsed = _ := h
  simp [lint, henabled, hp]

/-- A source that has a tree is failed, diagnosed or stopped by the walk over it. -/
theorem takes_of_tree (henabled : l.config.enabled = true) {tree : Ast.Node}
    (h : (Parse.parse e source).2 = .ok tree) : ∃ course, l.Takes e file source course := by
  have hlint : l.lint e file source = l.check e.room file tree (Parse.parse e source).1 := by
    rcases hp : Parse.parse e source with ⟨logs, parsed⟩
    rw [hp] at h
    obtain rfl : parsed = _ := h
    simp [lint, henabled, hp]
  unfold check at hlint
  split at hlint
  · rename_i c hclassify
    refine ⟨.diagnosed, henabled, tree, c, _, h, hclassify,
      reports_emit l.config file (Import.topLevel_nodup hclassify), ?_, ?_⟩
    · rw [hlint]
    · rw [hlint]
  · rename_i hclassify
    refine ⟨.failed, henabled, { file, message := Text.ofString tooDeep }, ?_, rfl, ?_, ?_⟩
    · simp [failure?, henabled, h, hclassify]
    · rw [hlint]
    · rw [hlint]
      rfl
  · rename_i halt hother hclassify
    refine ⟨.stopped, henabled, ?_, .walk halt, ?_, ?_⟩
    · simp only [failure?, henabled, h, hclassify, ↓reduceIte]
      split
      · rename_i hdeep
        cases hdeep
        exact absurd rfl hother
      · rfl
    · rw [hlint]
    · rw [hlint]

variable (e l file source)

/-- Linting takes one of the courses. -/
theorem exists_course : ∃ course, l.Takes e file source course := by
  cases henabled : l.config.enabled with
  | false => exact ⟨_, takes_of_disabled henabled⟩
  | true =>
    match h : (Parse.parse e source).2 with
    | .ok tree => exact takes_of_tree henabled h
    | .error (.refused goal why) => exact ⟨_, takes_of_refused henabled h⟩
    | .error (.escape f) => exact ⟨_, takes_of_escape henabled h⟩

/-- What linting adds to a linter: the diagnostics that it returns, and the failure of the source. -/
theorem lint_linter :
    (l.lint e file source).linter =
      { l with
        diagnostics := l.diagnostics ++ diagnosticsOf (l.lint e file source).found
        failures := l.failures ++ (failure? e l.config file source).toList } := by
  obtain ⟨course, h⟩ := exists_course e l file source
  cases course with
  | skipped =>
    obtain ⟨hoff, hfound, hlinter⟩ := h
    simp [hfound, hlinter, diagnosticsOf, failure?, hoff, Except.toOption]
  | failed =>
    obtain ⟨-, p, hp, -, hfound, hlinter⟩ := h
    simp [hfound, hlinter, diagnosticsOf, hp, Except.toOption]
  | diagnosed =>
    obtain ⟨hon, tree, c, ds, hparse, hclassify, -, hfound, hlinter⟩ := h
    simp [hfound, hlinter, diagnosticsOf, failure?, hon, hparse, hclassify, Except.toOption]
  | stopped =>
    obtain ⟨-, hnone, f, hfound, hlinter⟩ := h
    simp [hfound, hlinter, diagnosticsOf, hnone, Except.toOption]

/-- What tells the courses apart: whether the rule is on, whether linting returns, and how many
failures it adds. -/
def Course.mark : Course → Bool × Bool × Nat
  | .skipped => (false, true, 0)
  | .failed => (true, true, 1)
  | .diagnosed => (true, true, 0)
  | .stopped => (true, false, 0)

theorem Course.mark_injective : Function.Injective Course.mark := by
  intro a b h
  cases a <;> cases b <;> first | rfl | cases h

variable {e l file source}

theorem mark_of_takes {course : Course} (h : l.Takes e file source course) :
    course.mark = (l.config.enabled, (l.lint e file source).found.isOk,
      (l.lint e file source).linter.failures.length - l.failures.length) := by
  cases course with
  | skipped =>
    obtain ⟨hoff, hfound, hlinter⟩ := h
    simp [Course.mark, hoff, hfound, hlinter, Except.isOk, Except.toBool]
  | failed =>
    obtain ⟨hon, p, -, -, hfound, hlinter⟩ := h
    simp [Course.mark, hon, hfound, hlinter, Except.isOk, Except.toBool]
  | diagnosed =>
    obtain ⟨hon, tree, c, ds, -, -, -, hfound, hlinter⟩ := h
    simp [Course.mark, hon, hfound, hlinter, Except.isOk, Except.toBool]
  | stopped =>
    obtain ⟨hon, -, f, hfound, hlinter⟩ := h
    simp [Course.mark, hon, hfound, hlinter, Except.isOk, Except.toBool]

theorem course_unique {course other : Course} (h : l.Takes e file source course)
    (h' : l.Takes e file source other) : course = other :=
  Course.mark_injective ((mark_of_takes h).trans (mark_of_takes h').symm)

end Step

/-! ## Many calls -/

/-- What a linter is asked to do. -/
inductive Call where
  | lint (file source : Text)
  | reset

/-- The linter after a call, and what the call returned. -/
def answer (e : Engine) (l : Linter) : Call → Linter × Except Fault (List Diagnostic)
  | .lint file source => ((l.lint e file source).linter, (l.lint e file source).found)
  | .reset => (l.reset, .ok [])

/-- A call that was made. -/
structure Made where
  call : Call
  returned : Except Fault (List Diagnostic)

/-- Whether the call emptied the linter. -/
def Made.isReset (m : Made) : Bool :=
  match m.call with
  | .lint .. => false
  | .reset => true

/-- The failure of the source that a call was about. -/
def Made.failure? (e : Engine) (config : Config) (m : Made) : Option ParseFailure :=
  match m.call with
  | .lint file source => Linter.failure? e config file source
  | .reset => none

/-- A linter with the calls that were made on it, the first one first. -/
structure Session where
  linter : Linter
  made : List Made := []

namespace Session

/-- One more call. -/
def step (e : Engine) (s : Session) (c : Call) : Session :=
  { linter := (s.linter.answer e c).1
    made := s.made ++ [{ call := c, returned := (s.linter.answer e c).2 }] }

/-- The session of a new linter. -/
def run (e : Engine) (config : Config) (calls : List Call) : Session :=
  calls.foldl (step e) { linter := { config } }

/-- The calls since the linter was last emptied. -/
def sinceReset (s : Session) : List Made :=
  s.made.rtakeWhile fun m => ! m.isReset

/-- What a linter holds, said by the calls that were made on it. -/
structure Holds (e : Engine) (config : Config) (s : Session) : Prop where
  configured : s.linter.config = config
  diagnostics : s.linter.diagnostics = s.sinceReset.flatMap fun m => diagnosticsOf m.returned
  failures : s.linter.failures = s.sinceReset.filterMap (Made.failure? e config)
  /-- A call returns what it returns on a new linter. -/
  returned : ∀ m ∈ s.made, m.returned = (({ config } : Linter).answer e m.call).2

variable {e : Engine} {config : Config} {s : Session}

theorem answer_returned (e : Engine) (l : Linter) (c : Call) :
    (l.answer e c).2 = (({ config := l.config } : Linter).answer e c).2 := by
  cases c with
  | lint file source =>
    unfold answer
    dsimp only
    rw [lint_eq_extend]
  | reset => rfl

theorem sinceReset_lint (e : Engine) (s : Session) (file source : Text) :
    (s.step e (.lint file source)).sinceReset =
      s.sinceReset ++ [{ call := .lint file source
                         returned := (s.linter.lint e file source).found }] :=
  List.rtakeWhile_concat_pos _ _ _ rfl

theorem sinceReset_reset (e : Engine) (s : Session) : (s.step e .reset).sinceReset = [] :=
  List.rtakeWhile_concat_neg _ _ _ (by simp [Made.isReset])

/-- A call keeps what is said of the linter. -/
theorem holds_step (h : s.Holds e config) (c : Call) : (s.step e c).Holds e config := by
  have hreturned : ∀ m ∈ (s.step e c).made,
      m.returned = (({ config } : Linter).answer e m.call).2 := by
    intro m hm
    rcases List.mem_append.1 hm with hm | hm
    · exact h.returned m hm
    · obtain rfl := List.mem_singleton.1 hm
      rw [← h.configured]
      exact answer_returned e s.linter c
  cases c with
  | lint file source =>
    have hlinter : (s.step e (.lint file source)).linter = _ := lint_linter e s.linter file source
    refine ⟨?_, ?_, ?_, hreturned⟩
    · rw [hlinter]
      exact h.configured
    · rw [hlinter, sinceReset_lint, List.flatMap_append, List.flatMap_singleton, h.diagnostics]
    · rw [hlinter, sinceReset_lint, List.filterMap_append, h.failures, h.configured]
      cases hf : Linter.failure? e config file source <;> simp [Made.failure?, hf]
  | reset =>
    refine ⟨h.configured, ?_, ?_, hreturned⟩
    · rw [sinceReset_reset]
      rfl
    · rw [sinceReset_reset]
      rfl

theorem holds_run (e : Engine) (config : Config) (calls : List Call) :
    (run e config calls).Holds e config := by
  unfold run
  induction calls using List.reverseRecOn with
  | nil => exact ⟨rfl, rfl, rfl, by simp⟩
  | append_singleton calls c ih =>
    rw [List.foldl_append]
    exact holds_step ih c

theorem made_run (e : Engine) (config : Config) (calls : List Call) :
    (run e config calls).made.map (·.call) = calls := by
  unfold run
  induction calls using List.reverseRecOn with
  | nil => rfl
  | append_singleton calls c ih =>
    rw [List.foldl_append, List.foldl_cons, List.foldl_nil, step, List.map_append, ih]
    rfl

/-- A linter holds what the calls since it was last emptied have found, whatever the calls were: the
diagnostics that they returned, one call after another, and a failure for each of them that could not
be looked into. A call returns what it returns on a new linter, and linting takes one course of the
four: it is skipped, it adds one failure of the file, it adds and returns the diagnostics of the
specifiers that are loaded at the top level, or a fault stops it and nothing is added. -/
theorem run_holds_since_reset (e : Engine) (config : Config) (calls : List Call) :
    (run e config calls).made.map (·.call) = calls ∧
    (run e config calls).linter.diagnostics =
      ((run e config calls).sinceReset.flatMap fun m => diagnosticsOf m.returned) ∧
    (run e config calls).linter.failures =
      (run e config calls).sinceReset.filterMap (Made.failure? e config) ∧
    (∀ m ∈ (run e config calls).made, m.returned = (({ config } : Linter).answer e m.call).2) ∧
    ∀ (l : Linter) (file source : Text), ∃! course, l.Takes e file source course := by
  have h := holds_run e config calls
  refine ⟨made_run e config calls, h.diagnostics, h.failures, h.returned, fun l file source => ?_⟩
  obtain ⟨course, hcourse⟩ := exists_course e l file source
  exact ⟨course, hcourse, fun other hother => course_unique hother hcourse⟩

/-! ### A session that is emptied before it ends -/

def first : Text := Text.ofString "a.js"
def second : Text := Text.ofString "b.js"

/-- A source that does not parse is shown before the reset and after it. -/
def emptied : List Call :=
  [.lint first (Text.ofString ")"), .reset, .lint second (Text.ofString "import'vue'"),
   .lint first (Text.ofString ")")]

theorem run_emptied :
    (run .builtin {} emptied).linter.diagnostics =
        Diagnostic.emit [Text.ofString "vue"] second .warning ∧
      (run .builtin {} emptied).linter.failures.map (·.file) = [first] ∧
      (run .builtin {} emptied).made.length = 4 := by
  obtain ⟨hcalls, hdiagnostics, hfailures, -⟩ := run_holds_since_reset .builtin {} emptied
  refine ⟨?_, ?_, ?_⟩
  · rw [hdiagnostics]
    decide +kernel
  · rw [hfailures]
    decide +kernel
  · rw [← List.length_map, hcalls]
    rfl

end Session

end Linter

end LazyLint
