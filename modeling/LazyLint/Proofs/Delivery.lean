import LazyLint.Cli.Builtin
import LazyLint.Proofs.Batches
import LazyLint.Proofs.Encodable
import LazyLint.Proofs.Writing

/-!
# Where reports go

A run that comes to its report has linted some files and is about to print the report, or to write it
to a file that can be written. The report names the files and the specifiers that the rule is about, and
a specifier is spelled with escapes that may stand for a lone surrogate. `run_reports_unless_surrogate`
says what becomes of it: without a surrogate in any of them the whole report is there in UTF-8 and the
exit code tells whether it has a diagnostic, and with one the run ends in a fault after it has emptied the
file.
-/

namespace LazyLint

open Files (Tree)

/-! ## What a report is about -/

/-- The specifiers in a source that the rule is about; none if it is not looked into. -/
def Linter.specifiers (e : Engine) (config : Config) (source : Text) : List Text :=
  if config.enabled then
    match (Parse.parse e source).2 with
    | .error _ => []
    | .ok tree => ((Import.classify e.room config.deps tree).toOption.map (·.topLevel)).getD []
  else []

theorem Linter.found_eq_emit {e : Engine} {l : Linter} {file source : Text} {ds : List Diagnostic}
    (h : (l.lint e file source).found = .ok ds) :
    ds = Diagnostic.emit (specifiers e l.config source) file l.config.severity := by
  cases henabled : l.config.enabled with
  | false =>
    simp only [lint, henabled] at h
    cases h
    simp [specifiers, henabled, Diagnostic.emit]
  | true =>
    rcases hparse : Parse.parse e source with ⟨logs, parsed⟩
    simp only [lint, henabled, hparse, Bool.not_true, Bool.false_eq_true, if_false] at h
    simp only [specifiers, henabled, hparse, if_true]
    cases parsed with
    | error f =>
      cases f <;> cases h
      rfl
    | ok tree =>
      dsimp only at h ⊢
      unfold check at h
      split at h
      · rename_i c hc
        cases h
        rw [hc]
        rfl
      · rename_i hc
        cases h
        rw [hc]
        rfl
      · cases h

namespace Batch

/-- The specifiers in a file that the rule is about. -/
def specifiersIn (e : Engine) (tree : Tree) (config : Config) (path : Text) : List Text :=
  match tree.read path with
  | .error _ => []
  | .ok bytes => Linter.specifiers e config (Lines.decode bytes)

theorem found_of_alone {e : Engine} {tree : Tree} {config : Config} {path : Text} {o : Outcome}
    (h : alone e tree config path = .ok o) :
    o.found = Diagnostic.emit (specifiersIn e tree config path) path config.severity := by
  obtain ⟨f, hread, rfl⟩ | ⟨bytes, found, hread, hfound, rfl⟩ := alone_eq_ok h
  · rw [specifiersIn, hread]
    rfl
  · rw [specifiersIn, hread]
    exact Linter.found_eq_emit hfound

section Result

variable {e : Engine} {tree : Tree} {targets : List Text} {config : Config} {s : Schedule} {r : Result}

/-- A run that comes to a result comes to the same one however its work is spread. -/
theorem result_eq (horder : ∀ n, (s.order n).Perm (List.range n))
    (h : (lintPaths e tree targets config s).2 = .ok r) :
    r = inOrder tree (fun path => (alone e tree config path).toOption.getD {})
        (Discovery.collect tree targets).2 ∧
      ∀ path ∈ (Discovery.collect tree targets).2, ∃ o, alone e tree config path = .ok o := by
  have hreturns : ∀ path ∈ (Discovery.collect tree targets).2, ∃ o, alone e tree config path = .ok o := by
    intro path hpath
    cases ho : alone e tree config path with
    | ok o => exact ⟨o, rfl⟩
    | error f =>
      obtain ⟨g, hg, -⟩ := lintPaths_of_error rfl (horder _) hpath ho
      cases h.symm.trans hg
  have halone : ∀ path ∈ (Discovery.collect tree targets).2,
      alone e tree config path = .ok ((alone e tree config path).toOption.getD {}) := by
    intro path hpath
    obtain ⟨o, ho⟩ := hreturns path hpath
    rw [ho]
    rfl
  exact ⟨Except.ok.inj (h.symm.trans (lintPaths_of_ok rfl (horder _) halone)), hreturns⟩

/-- The diagnostics of a run stand for the specifiers in the files, one after another. -/
theorem diagnostics_eq (horder : ∀ n, (s.order n).Perm (List.range n))
    (h : (lintPaths e tree targets config s).2 = .ok r) :
    r.diagnostics = r.files.flatMap fun path =>
      Diagnostic.emit (specifiersIn e tree config path) path config.severity := by
  obtain ⟨rfl, hreturns⟩ := result_eq horder h
  refine List.flatMap_congr fun path hpath => ?_
  obtain ⟨o, ho⟩ := hreturns path (List.mem_filter.1 hpath).1
  dsimp only
  rw [ho]
  exact found_of_alone ho

end Result

end Batch

theorem Diagnostic.hasBytes_advice (s : Text) : (advice s).HasBytes ↔ s.HasBytes := by
  simp [advice]

theorem Diagnostic.hasBytes_emit (specifiers : List Text) (file : Text) (severity : Severity) :
    (∀ d ∈ emit specifiers file severity, d.HasBytes) ↔
      ∀ s ∈ specifiers, file.HasBytes ∧ s.HasBytes := by
  rw [emit, List.forall_mem_map]
  refine forall₂_congr fun s _ => ?_
  constructor
  · intro h
    exact ⟨h.file, (hasBytes_advice s).1 h.message⟩
  · rintro ⟨hfile, hs⟩
    exact ⟨hfile, Text.hasBytes_ofString ruleName, (hasBytes_advice s).2 hs⟩

namespace Cli

/-! ## Delivery -/

section Deliver

variable {tree : Tree} {output : Option Text} {text : Text}

/-- The file that is given for the report, if there is one, can be written. -/
def IsWritable (tree : Tree) (output : Option Text) : Prop :=
  ∀ path, given output = some path → ∃ after, tree.write path [] = .ok after

/-- A text stands where it is meant to: it is printed and the files are as before, or it is what is in
the file that is given. -/
def IsShown (tree : Tree) (output : Option Text) (text out : Text) (after : Tree) : Prop :=
  ∃ bytes, text.encode = .ok bytes ∧ Text.ofChars (Utf8.decode bytes) = text ∧
    match given output with
    | none => out = text ∧ after = tree
    | some path => out = [] ∧ after.file? path = some bytes

/-- Nothing is put out: the files are as before, or the file that is given is there and empty. -/
def IsEmptied (tree : Tree) (output : Option Text) (after : Tree) : Prop :=
  match given output with
  | none => after = tree
  | some path => after.file? path = some []

theorem deliver_of_hasBytes (hwritable : IsWritable tree output) (h : text.HasBytes) :
    ∃ last out after, deliver tree output text = .ok (last, out, after) ∧
      IsShown tree output (text ++ "\n") out after := by
  have hline : (text ++ "\n" : Text).HasBytes := by simp [h]
  obtain ⟨bytes, hbytes, hdecode⟩ := Text.encode_of_hasBytes hline
  cases hgiven : given output with
  | none =>
    refine ⟨[], text ++ "\n", tree, ?_, bytes, hbytes, hdecode, ?_⟩
    · simp only [deliver, hgiven, Text.encodeFault?_eq_none_iff.2 h]
      rfl
    · rw [hgiven]
      exact ⟨rfl, rfl⟩
  | some path =>
    obtain ⟨emptied, hemptied⟩ := hwritable path hgiven
    obtain ⟨after, hafter⟩ := Files.Tree.exists_write_ok hemptied bytes
    refine ⟨[Log.info ("Report written to " ++ path)], [], after, ?_, bytes, hbytes, hdecode, ?_⟩
    · simp only [deliver, hgiven, hemptied, hbytes, hafter, Except.mapError, bind, Except.bind]
      rfl
    · rw [hgiven]
      exact ⟨rfl, Files.Tree.file?_write hafter⟩

theorem deliver_of_not_hasBytes (hwritable : IsWritable tree output) (h : ¬ text.HasBytes) :
    ∃ f, deliver tree output text = .error (.encode f) ∧ IsEmptied tree output f.tree := by
  cases hgiven : given output with
  | none =>
    obtain ⟨f, hf⟩ := Text.exists_encodeFault h
    refine ⟨{ f with tree }, ?_, ?_⟩
    · simp only [deliver, hgiven, hf]
      rfl
    · rw [IsEmptied, hgiven]
  | some path =>
    have hline : ¬ (text ++ "\n" : Text).HasBytes := by simp [h]
    obtain ⟨f, hf⟩ := Text.exists_encodeFault hline
    obtain ⟨emptied, hemptied⟩ := hwritable path hgiven
    refine ⟨{ f with tree := emptied }, ?_, ?_⟩
    · simp only [deliver, hgiven, hemptied, Text.encode, hf, Except.mapError]
      rfl
    · rw [IsEmptied, hgiven]
      exact Files.Tree.file?_write hemptied

theorem isWritable_of_deliver {last : List Log.Record} {out : Text} {after : Tree}
    (h : deliver tree output text = .ok (last, out, after)) : IsWritable tree output := by
  intro path hgiven
  cases hwrite : tree.write path [] with
  | ok emptied => exact ⟨emptied, rfl⟩
  | error f =>
    simp only [deliver, hgiven, hwrite] at h
    cases h

/-- What is delivered is there. -/
theorem isShown_of_deliver {last : List Log.Record} {out : Text} {after : Tree}
    (h : deliver tree output text = .ok (last, out, after)) :
    IsShown tree output (text ++ "\n") out after := by
  have hwritable := isWritable_of_deliver h
  have hbytes : text.HasBytes := by
    by_contra hnot
    obtain ⟨f, hf, -⟩ := deliver_of_not_hasBytes hwritable hnot
    cases h.symm.trans hf
  obtain ⟨last', out', after', hdeliver, hshown⟩ := deliver_of_hasBytes hwritable hbytes
  cases h.symm.trans hdeliver
  exact hshown

end Deliver

/-! ## Runs -/

section Run

variable {s : Setting} {tree : Tree} {env vars : Config.Environment} {args : List Text} {o : Options}
  {config : Config} {r : Batch.Result} {notes : List Text} {least : Nat}

/-- A run that comes to its configuration: the arguments ask for the linting of some targets, and nothing
before it fails. -/
structure ComesToLint (s : Setting) (tree : Tree) (env : Config.Environment) (args : List Text)
    (o : Options) (vars : Config.Environment) (notes : List Text) (least : Nat) : Prop where
  asked : request args = .ok (.run o)
  targets : o.targets ≠ []
  lints : o.dumpTrees = false
  level : threshold (if o.logLevel.isEmpty then "INFO" else o.logLevel) = .ok least
  loaded : s.environment tree env = .ok (vars, notes)

/-- A run that comes to its report: it comes to its configuration, which is loaded, with nothing in the
log that is too deep to be shown, and the targets are linted. -/
def ComesToReport (s : Setting) (tree : Tree) (env : Config.Environment) (args : List Text) (o : Options)
    (config : Config) (r : Batch.Result) : Prop :=
  ∃ vars notes least logs, ComesToLint s tree env args o vars notes least ∧
    s.configure tree vars o = (logs, .ok config) ∧ logsTooDeep least logs = false ∧
    (Batch.lintPaths s.toEngine tree o.targets config { jobs := o.jobs }).2 = .ok r

/-- What the notes about the file of variables put on the error stream. -/
def preamble (notes : List Text) : Text :=
  notes.flatMap fun n => n.spelledOut ++ [0x0A]

theorem ComesToLint.run_eq (h : ComesToLint s tree env args o vars notes least) :
    run s tree env args = lint s tree vars o least (preamble notes) := by
  rw [run, h.loaded, h.asked]
  change runWith s tree vars o (preamble notes) = _
  rw [runWith, h.level]
  simp [h.targets, h.lints, bind, Except.bind]

theorem exitCode_total (r : Batch.Result) :
    exitCode r.total = if r.diagnostics = [] then 0 else 1 := by
  rw [exitCode, Batch.Result.total]
  cases r.diagnostics <;> simp

theorem lint_eq_deliver {logs more : List Log.Record}
    (hload : s.configure tree vars o = (logs, .ok config)) (hshallow : logsTooDeep least logs = false)
    (hlint : Batch.lintPaths s.toEngine tree o.targets config { jobs := o.jobs } = (more, .ok r))
    (err : Text) :
    lint s tree vars o least err =
      (deliver tree o.output (report o.format r.diagnostics)).map fun (last, out, after) =>
        { code := exitCode r.total, out, err := err ++ s.logText least (logs ++ more ++ last),
          tree := after } := by
  rw [lint, hload]
  dsimp only
  rw [hshallow, if_neg Bool.false_ne_true, hlint]
  dsimp only
  cases deliver tree o.output (report o.format r.diagnostics) <;> rfl

theorem run_eq_deliver (h : ComesToReport s tree env args o config r) :
    ∃ err : List Log.Record → Text, run s tree env args =
      (deliver tree o.output (report o.format r.diagnostics)).map fun (last, out, after) =>
        { code := exitCode r.total, out, err := err last, tree := after } := by
  obtain ⟨vars, notes, least, logs, hcomes, hload, hshallow, hlint⟩ := h
  rcases hpaths : Batch.lintPaths s.toEngine tree o.targets config { jobs := o.jobs } with ⟨more, result⟩
  rw [hpaths] at hlint
  obtain rfl : result = _ := hlint
  refine ⟨fun last => preamble notes ++ s.logText least (logs ++ more ++ last), ?_⟩
  rw [hcomes.run_eq]
  exact lint_eq_deliver hload hshallow hpaths _

/-- The whole report is delivered, and the exit code tells whether it has a diagnostic, unless a file or
a specifier in it holds a surrogate: then the run ends in a fault of encoding, and a file that was to
hold the report is left empty. -/
theorem run_reports_unless_surrogate (h : ComesToReport s tree env args o config r)
    (hwritable : IsWritable tree o.output) :
    ((∀ path ∈ r.files, ∀ n ∈ Batch.specifiersIn s.toEngine tree config path,
        path.HasBytes ∧ n.HasBytes) →
      ∃ outcome, run s tree env args = .ok outcome ∧
        outcome.code = (if r.diagnostics = [] then 0 else 1) ∧
        IsShown tree o.output (report o.format r.diagnostics ++ "\n") outcome.out outcome.tree) ∧
    ((∃ path ∈ r.files, ∃ n ∈ Batch.specifiersIn s.toEngine tree config path,
        ¬ (path.HasBytes ∧ n.HasBytes)) →
      ∃ f, run s tree env args = .error (.encode f) ∧ IsEmptied tree o.output f.tree) := by
  obtain ⟨err, hrun⟩ := run_eq_deliver h
  obtain ⟨vars, notes, least, logs, -, -, -, hlint⟩ := h
  have hreport : (report o.format r.diagnostics).HasBytes ↔
      ∀ path ∈ r.files, ∀ n ∈ Batch.specifiersIn s.toEngine tree config path, path.HasBytes ∧ n.HasBytes := by
    rw [hasBytes_report, Batch.diagnostics_eq (fun n => .refl _) hlint, List.forall_mem_flatMap]
    simp only [Diagnostic.hasBytes_emit]
  refine ⟨fun hbytes => ?_, fun hsurrogate => ?_⟩
  · obtain ⟨last, out, after, hdeliver, hshown⟩ :=
      deliver_of_hasBytes hwritable (hreport.2 hbytes)
    rw [hrun, hdeliver]
    refine ⟨_, rfl, ?_, hshown⟩
    exact exitCode_total r
  · have hnot : ¬ (report o.format r.diagnostics).HasBytes := by
      obtain ⟨path, hpath, n, hn, hnot⟩ := hsurrogate
      exact fun hbytes => hnot (hreport.1 hbytes path hpath n hn)
    obtain ⟨f, hdeliver, hemptied⟩ := deliver_of_not_hasBytes hwritable hnot
    exact ⟨f, by rw [hrun, hdeliver]; rfl, hemptied⟩

end Run

/-! ### Half a pair of surrogates in a specifier -/

def script : Text := Text.ofString "a.js"

def halfTree : Tree where
  top := [(script, .file "import'vue/\\uD800'".toUTF8.toList)]

def reportFile : Text := Text.ofString "r"

def halfOptions : Options where
  targets := [script]
  output := some reportFile

theorem specifiersIn_halfTree :
    Batch.specifiersIn .builtin halfTree {} script = [Text.ofString "vue/" ++ [0xD800]] := by
  decide +kernel

theorem lintPaths_halfTree : ∃ r : Batch.Result, r.files = [script] ∧
    (Batch.lintPaths .builtin halfTree [script] {} {}).2 = .ok r := by
  have hfiles : (Batch.lintPaths .builtin halfTree [script] {} {}).2.toOption.map (·.files) =
      some [script] := by
    decide +kernel
  cases hr : (Batch.lintPaths .builtin halfTree [script] {} {}).2 with
  | error f =>
    rw [hr] at hfiles
    cases hfiles
  | ok r =>
    rw [hr] at hfiles
    exact ⟨r, Option.some.inj hfiles, rfl⟩

/-- The report on it is lost, and the file that was to hold it is empty. -/
theorem run_halfTree :
    ∃ f, run .builtin halfTree [] [script, Text.ofString "--output", reportFile] = .error (.encode f) ∧
      f.tree.file? reportFile = some [] := by
  obtain ⟨r, hfiles, hr⟩ := lintPaths_halfTree
  have hcomes : ComesToReport .builtin halfTree [] [script, Text.ofString "--output", reportFile]
      halfOptions {} r := by
    refine ⟨[], [], 20, [], ?_, rfl, rfl, hr⟩
    exact { asked := rfl, targets := List.cons_ne_nil script [], lints := rfl, level := rfl, loaded := rfl }
  have hwritable : IsWritable halfTree halfOptions.output := by
    intro path hpath
    cases hpath
    exact ⟨_, rfl⟩
  refine (run_reports_unless_surrogate hcomes hwritable).2
    ⟨script, hfiles ▸ List.mem_singleton_self script, Text.ofString "vue/" ++ [0xD800], ?_, ?_⟩
  · change _ ∈ Batch.specifiersIn .builtin halfTree {} script
    rw [specifiersIn_halfTree]
    exact List.mem_singleton_self _
  · decide

end Cli

end LazyLint
