import LazyLint.Proofs.Classification
import LazyLint.Proofs.Delivery
import LazyLint.Proofs.Isolation

/-!
# Exit codes

The code of a run says one of three things: that there is nothing to report, that there is, or that the
configuration is at fault. `run_ok_cases` and `lint_ok_cases` say once in which ways a run can return, and
the rest is read off them.

A configuration that cannot be loaded gives the third code, and nothing else does if the arguments are
accepted (`code_two_of_load_fault`). This has holes, which `Uncaught` lists: a path to something that is
there and cannot be read, what a loader raises besides its own faults, and a value that is nested too
deeply for the message that shows it. These end the run without a code.

The first two codes depend on the targets, the files and the configuration alone (`code_eq_of_targets`):
neither the format of the report nor its place nor the number of tasks has a say in them.
-/

namespace LazyLint

open Files (Tree)

/-! ## Files that are reported -/

/-- A heavy module is loaded together with the tree: by an import declaration or a call of `require`
outside of all functions. -/
def Import.LoadsHeavy (deps : List Text) (t : Ast.Node) : Prop :=
  ∃ p ∈ t.visits, ∃ s, p.depth Ast.functionKinds = 0 ∧ Dependency.isHeavy deps s = true ∧
    (loads? p.node = some (.static, s) ∨ loads? p.node = some (.require, s))

theorem Import.filterMap_eager_ne_nil_iff {deps : List Text} {t : Ast.Node} :
    (t.visits.filterMap (eager? deps)).eraseDups ≠ [] ↔ LoadsHeavy deps t := by
  have hplace : ∀ p s, eager? deps p = some s ↔ p.depth Ast.functionKinds = 0 ∧
      Dependency.isHeavy deps s = true ∧
      (loads? p.node = some (.static, s) ∨ loads? p.node = some (.require, s)) := by
    intro p s
    rw [eager?_eq_some_iff, inFunction_eq_false_iff, Ast.Placed.depth_eq_zero_iff]
    exact and_left_comm
  constructor
  · intro h
    obtain ⟨s, hs⟩ := List.exists_mem_of_ne_nil _ h
    obtain ⟨p, hp, heager⟩ := List.mem_filterMap.1 (List.mem_eraseDups.1 hs)
    exact ⟨p, hp, s, (hplace p s).1 heager⟩
  · rintro ⟨p, hp, s, hs⟩
    refine List.ne_nil_of_mem (a := s) (List.mem_eraseDups.2 (List.mem_filterMap.2 ⟨p, hp, ?_⟩))
    exact (hplace p s).2 hs

namespace Linter

variable {e : Engine}

theorem sound_of_parse {source : Text} {t : Ast.Node} (h : (Parse.parse e source).2 = .ok t) :
    t.Sound := by
  by_cases haccepted : Parse.IsAccepted e source
  · rw [Parse.parse_of_accepted haccepted, mapError_eq_ok_iff] at h
    exact Cst.lower_sound h
  · obtain ⟨why, hrefused⟩ := Parse.parse_of_refused haccepted
    cases h.symm.trans hrefused

/-- A tree with a specifier to report is one that could be walked. -/
theorem topLevel_ne_nil_iff {room : Nat} {deps : List Text} {t : Ast.Node} (hn : t.Sound) :
    ((Import.classify room deps t).toOption.map (·.topLevel)).getD [] ≠ [] ↔
      t.FitsIn room ∧ Import.LoadsHeavy deps t := by
  have hhalt : (Ast.walk (Import.visitor deps) room t {} {}).halt = none ↔ t.FitsIn room :=
    Ast.walk_halt_eq_none_iff (Import.visitor_of_sound hn deps) hn
  by_cases hfits : t.FitsIn room
  · rw [Import.classify_eq (hhalt.2 hfits)]
    simp only [Except.toOption, Option.map_some, Option.getD_some, hfits, true_and]
    exact Import.filterMap_eager_ne_nil_iff
  · -- The walk is cut short, and nothing is kept of what it has met.
    have hdeep : ∀ c, Import.classify room deps t ≠ .ok c := by
      intro c hc
      unfold Import.classify at hc
      dsimp only at hc
      split at hc
      · rename_i hnone
        exact hfits (hhalt.1 hnone)
      · cases hc
    cases hclassify : Import.classify room deps t with
    | ok c => exact absurd hclassify (hdeep c)
    | error e => simp [Except.toOption, hfits]

theorem specifiers_ne_nil_iff {config : Config} {source : Text} :
    specifiers e config source ≠ [] ↔ config.enabled = true ∧ ∃ t, (Parse.parse e source).2 = .ok t ∧
      t.FitsIn e.room ∧ Import.LoadsHeavy config.deps t := by
  unfold specifiers
  split
  · rename_i henabled
    split
    · rename_i f hparse
      simp [hparse]
    · rename_i t hparse
      rw [topLevel_ne_nil_iff (sound_of_parse hparse)]
      simp [henabled, hparse]
  · rename_i hdisabled
    simp [hdisabled]

end Linter

namespace Batch

/-- A file with something to report: it can be read and parsed, is not too deep to be walked, and loads
a heavy module when it is loaded itself. -/
def IsFlagged (e : Engine) (tree : Tree) (deps : List Text) (path : Text) : Prop :=
  ∃ bytes t, tree.read path = .ok bytes ∧ (Parse.parse e (Lines.decode bytes)).2 = .ok t ∧
    t.FitsIn e.room ∧ Import.LoadsHeavy deps t

theorem specifiersIn_ne_nil_iff {e : Engine} {tree : Tree} {config : Config} {path : Text} :
    specifiersIn e tree config path ≠ [] ↔ config.enabled = true ∧ IsFlagged e tree config.deps path := by
  unfold specifiersIn IsFlagged
  split
  · rename_i f hread
    simp [hread]
  · rename_i bytes hread
    rw [Linter.specifiers_ne_nil_iff]
    simp [hread]

/-- A run has a diagnostic if and only if one of the files that were found is flagged. -/
theorem diagnostics_ne_nil_iff {e : Engine} {tree : Tree} {targets : List Text} {config : Config}
    {s : Schedule} {r : Result} (horder : ∀ n, (s.order n).Perm (List.range n))
    (h : (lintPaths e tree targets config s).2 = .ok r) :
    r.diagnostics ≠ [] ↔ config.enabled = true ∧
      ∃ path ∈ (Discovery.collect tree targets).2, IsFlagged e tree config.deps path := by
  have hfiles : r.files = (Discovery.collect tree targets).2.filter (isReadable tree) := by
    rw [(result_eq horder h).1]
    rfl
  have hflagged : ∀ path, Diagnostic.emit (specifiersIn e tree config path) path config.severity ≠ [] ↔
      config.enabled = true ∧ IsFlagged e tree config.deps path := by
    intro path
    rw [← specifiersIn_ne_nil_iff, Diagnostic.emit, ne_eq, List.map_eq_nil_iff]
  rw [diagnostics_eq horder h, hfiles, ne_eq, List.flatMap_eq_nil_iff]
  constructor
  · intro hsome
    push Not at hsome
    obtain ⟨path, hpath, hne⟩ := hsome
    obtain ⟨henabled, hflag⟩ := (hflagged path).1 hne
    exact ⟨henabled, path, (List.mem_filter.1 hpath).1, hflag⟩
  · rintro ⟨henabled, path, hpath, hflag⟩ hnone
    have hreadable : isReadable tree path = true := by
      obtain ⟨bytes, t, hread, -⟩ := hflag
      rw [isReadable, hread]
      rfl
    exact (hflagged path).2 ⟨henabled, hflag⟩ (hnone path (List.mem_filter.2 ⟨hpath, hreadable⟩))

end Batch

/-! ## What reports say -/

namespace Report

/-- A report with a diagnostic starts with an empty line. -/
theorem text_eq_clean_iff {ds : List Diagnostic} : text ds = Text.ofString clean ↔ ds = [] := by
  cases ds with
  | nil => exact ⟨fun _ => rfl, fun _ => rfl⟩
  | cons d ds =>
    refine ⟨fun h => ?_, fun h => by cases h⟩
    have hstart : (text (d :: ds)).head? = some 0x0A := rfl
    have hclean : (Text.ofString clean).head? = some 0x44 := rfl
    rw [h, hclean] at hstart
    exact absurd hstart (by decide)

end Report

/-- The member of an object. -/
def Json.member? (v : Json) (key : String) : Option Json :=
  match v with
  | .object members => (members.find? (·.1 = key)).map (·.2)
  | _ => none

/-- The results in a log of one run. -/
def Report.Sarif.results? (log : Json) : Option (List Json) :=
  match log.member? "runs" with
  | some (.list [run]) =>
    match run.member? "results" with
    | some (.list results) => some results
    | _ => none
  | _ => none

theorem Report.Sarif.results?_log (ds : List Diagnostic) : results? (log ds) = some (ds.map result) :=
  rfl

namespace Cli

variable {s : Setting} {tree : Tree} {env vars : Config.Environment} {args : List Text} {o : Options}
  {outcome : Outcome} {least : Nat}

/-! ## In which ways a run returns -/

/-- Help, no targets and trees to show have a code of their own; every other run is for `lint`. -/
theorem run_ok_cases {r : Request} (hasked : request args = .ok r)
    (hrun : run s tree env args = .ok outcome) :
    r = .help ∧ outcome.code = 0 ∨ ∃ o, r = .run o ∧
      (o.targets = [] ∧ outcome.code = 1 ∧ outcome.out = [] ∧ outcome.tree = tree ∨
        o.targets ≠ [] ∧ o.dumpTrees = true ∧ outcome.code = 0 ∨
        ∃ vars notes least, ComesToLint s tree env args o vars notes least) := by
  rw [run, hasked] at hrun
  obtain ⟨⟨vars, notes⟩, hloaded, hrun⟩ := bind_eq_ok_iff.1 hrun
  rw [mapError_eq_ok_iff] at hloaded
  cases r with
  | help =>
    cases hrun
    exact .inl ⟨rfl, rfl⟩
  | run o =>
    refine .inr ⟨o, rfl, ?_⟩
    obtain ⟨least, hleast, hrun⟩ := bind_eq_ok_iff.1 hrun
    split at hrun
    · rename_i hempty
      cases hrun
      exact .inl ⟨List.isEmpty_iff.1 hempty, rfl, rfl, rfl⟩
    · rename_i hnonempty
      have htargets : o.targets ≠ [] := fun hnil => hnonempty (List.isEmpty_iff.2 hnil)
      split at hrun
      · rename_i hdump
        obtain ⟨⟨logs, out⟩, -, hrun⟩ := bind_eq_ok_iff.1 hrun
        cases hrun
        exact .inr (.inl ⟨htargets, hdump, rfl⟩)
      · rename_i hlints
        have hlints : o.dumpTrees = false := Bool.eq_false_iff.2 hlints
        exact .inr (.inr ⟨vars, notes, least, hasked, htargets, hlints, hleast, hloaded⟩)

/-- The name of a level is at fault only if it stands for a format. -/
theorem format_of_threshold {name : Text} {f : Fault} (h : threshold name = .error f) :
    ∃ format ∈ formats, Text.ofString format.1 = name.flatMap raised ∧ f = .level format.2 := by
  unfold threshold at h
  dsimp only at h
  split at h
  · rename_i format e hfind
    cases h
    have hname := List.find?_some hfind
    exact ⟨(format, e), List.mem_of_find?_eq_some hfind, beq_iff_eq.1 hname, rfl⟩
  · cases h

/-- A run with targets to lint comes to its configuration, unless it fails at the files of variables or
at a log level that stands for a format. -/
theorem comesToLint_or_fails (hasked : request args = .ok (.run o)) (htargets : o.targets ≠ [])
    (hlints : o.dumpTrees = false) :
    (∃ vars notes least, ComesToLint s tree env args o vars notes least) ∨
      (∃ e, s.environment tree env = .error e ∧ run s tree env args = .error (.variables e)) ∨
      ∃ f ∈ formats, Text.ofString f.1 = o.logLevel.flatMap raised ∧
        run s tree env args = .error (.level f.2) := by
  cases hvars : s.environment tree env with
  | error e =>
    refine .inr (.inl ⟨e, rfl, ?_⟩)
    rw [run, hvars]
    rfl
  | ok loaded =>
    obtain ⟨vars, notes⟩ := loaded
    cases hleast : threshold (if o.logLevel.isEmpty then "INFO" else o.logLevel) with
    | ok least => exact .inl ⟨vars, notes, least, hasked, htargets, hlints, hleast, hvars⟩
    | error f =>
      obtain ⟨format, hformat, hname, rfl⟩ := format_of_threshold hleast
      refine .inr (.inr ⟨format, hformat, ?_, ?_⟩)
      · split at hleast
        · cases hleast
        · rename_i hgiven
          rw [hname, if_neg hgiven]
      · rw [run, hvars, hasked]
        change runWith s tree vars o (preamble notes) = _
        rw [runWith, hleast]
        rfl

/-- Linting returns with a fault of the configuration that is caught, or after the report. -/
theorem lint_ok_cases {err : Text} (h : lint s tree vars o least err = .ok outcome) :
    (∃ logs f, s.configure tree vars o = (logs, .error f) ∧ logsTooDeep least logs = false ∧
      isCaught s.valueRoom f = true) ∨
    ∃ config r, (s.configure tree vars o).2 = .ok config ∧
      (Batch.lintPaths s.toEngine tree o.targets config { jobs := o.jobs }).2 = .ok r ∧
      outcome.code = exitCode r.total ∧
      IsShown tree o.output (report o.format r.diagnostics ++ "\n") outcome.out outcome.tree := by
  rcases hload : s.configure tree vars o with ⟨logs, loaded⟩
  rw [lint, hload] at h
  dsimp only at h
  split at h
  · cases h
  · rename_i hshallow
    rw [Bool.not_eq_true] at hshallow
    cases loaded with
    | error f =>
      dsimp only at h
      split at h
      · rename_i hcaught
        exact .inl ⟨logs, f, rfl, hshallow, hcaught⟩
      · cases h
    | ok config =>
      dsimp only at h
      rcases hpaths : Batch.lintPaths s.toEngine tree o.targets config { jobs := o.jobs } with ⟨more, f | r⟩
      · rw [hpaths] at h
        cases h
      · rw [hpaths] at h
        dsimp only at h
        obtain ⟨⟨last, out, after⟩, hdeliver, h⟩ := bind_eq_ok_iff.1 h
        cases h
        exact .inr ⟨config, r, rfl, by rw [hpaths], rfl, isShown_of_deliver hdeliver⟩

/-! ## Faults of the configuration -/

/-- The faults of a configuration that end a run without a code: the path leads to a directory, or to
something that may not be read; the loader raises something else than that the document is malformed or
a value of it does not exist; or the message would show a value that is nested too deeply. -/
inductive Uncaught (s : Setting) (tree : Tree) (path : Option Text) : Config.LoadFault → Prop
  | directory {p : Text} (hpath : path = some p) (hdirectory : tree.isDirectory p = true)
    (hallowed : p ∉ tree.refused) : Uncaught s tree path (.unreadable (.isDirectory p))
  | refused {p : Text} (hpath : path = some p)
    (hthere : tree.isFile p = true ∨ tree.isDirectory p = true)
    (hrefused : p ∈ tree.refused) : Uncaught s tree path (.unreadable (.refused p))
  | document {p : Text} {bytes : List UInt8} {e : Raised} (hpath : path = some p)
    (hread : tree.read p = .ok bytes) (hload : s.documents bytes = .error (.other e)) :
    Uncaught s tree path (.document p (.other e))
  | tooDeep {f : Config.Fault} (hdeep : f.isTooDeep s.valueRoom = true) : Uncaught s tree path (.invalid f)

section Uncaught

variable {f : Config.LoadFault}

theorem not_isCaught_of_uncaught {path : Option Text} (h : Uncaught s tree path f) :
    isCaught s.valueRoom f = false := by
  cases h with
  | tooDeep hdeep => rw [isCaught, hdeep, Bool.not_true]
  | _ => rfl

theorem isDirectory_of_find {p : Text} {place : Files.Place} (h : tree.find p = .directory place) :
    tree.isDirectory p = true := by
  rw [Tree.isDirectory, Tree.directory?, h]
  rfl

/-- What is there and cannot be read may not be read, or is a directory. -/
theorem unreadable_cases {p : Text} {g : Files.Fault}
    (hthere : tree.isFile p = true ∨ tree.isDirectory p = true) (h : tree.read p = .error g) :
    p ∈ tree.refused ∧ g = .refused p ∨
      p ∉ tree.refused ∧ tree.isDirectory p = true ∧ g = .isDirectory p := by
  unfold Tree.read at h
  split at h
  · rename_i hrefused
    cases h
    exact .inl ⟨List.contains_iff_mem.1 hrefused, rfl⟩
  · rename_i hallowed
    rw [List.contains_iff_mem] at hallowed
    cases hfind : tree.find p with
    | file place name bytes =>
      rw [hfind] at h
      cases h
    | directory place =>
      rw [hfind] at h
      cases h
      exact .inr ⟨hallowed, isDirectory_of_find hfind, rfl⟩
    | _ =>
      rw [Tree.isFile, Tree.file?, Tree.isDirectory, Tree.directory?, hfind] at hthere
      simp at hthere

theorem uncaught_of_readValue {p : Text} (h : Config.readValue s.documents tree p = .error f)
    (hcaught : isCaught s.valueRoom f = false) : Uncaught s tree (some p) f := by
  have hread : tree.isFile p = true ∨ tree.isDirectory p = true →
      ((tree.read p).mapError .unreadable >>= fun bytes =>
        (s.documents bytes).mapError (.document p)) = .error f → Uncaught s tree (some p) f := by
    intro hthere hbind
    cases hread : tree.read p with
    | error g =>
      rw [hread] at hbind
      cases hbind
      obtain ⟨hrefused, rfl⟩ | ⟨hallowed, hdirectory, rfl⟩ := unreadable_cases hthere hread
      · exact .refused rfl hthere hrefused
      · exact .directory rfl hdirectory hallowed
    | ok bytes =>
      rw [hread] at hbind
      obtain ⟨g, hload, rfl⟩ := mapError_eq_error_iff.1 hbind
      cases g with
      | other e => exact .document rfl hread hload
      | _ => cases hcaught
  unfold Config.readValue at h
  split at h
  · rename_i hfind
    exact hread (.inl (by rw [Tree.isFile, Tree.file?, hfind]; rfl)) h
  · rename_i hfind
    exact hread (.inr (isDirectory_of_find hfind)) h
  · cases h
    cases hcaught

/-- The faults of loading that are not caught. -/
theorem isCaught_eq_false_iff (h : (s.configure tree vars o).2 = .error f) :
    isCaught s.valueRoom f = false ↔ Uncaught s tree (configPath vars o) f := by
  refine ⟨fun hcaught => ?_, not_isCaught_of_uncaught⟩
  have hcomplete : ∀ path v, (Config.complete s.valueRoom v vars).2 = .error f → Uncaught s tree path f := by
    intro path v hv
    obtain ⟨g, -, rfl⟩ := mapError_eq_error_iff.1 hv
    exact .tooDeep (by simpa [isCaught] using hcaught)
  unfold Setting.configure Config.load at h
  split at h
  · exact hcomplete _ .null h
  · rename_i p hpath
    have hgiven : configPath vars o = some p := (Option.filter_eq_some_iff.1 hpath).1
    rw [hgiven]
    split at h
    · rename_i g hread
      cases h
      exact uncaught_of_readValue hread hcaught
    · rename_i v hread
      exact hcomplete _ v h

end Uncaught

theorem lint_of_load_error {err : Text} {logs : List Log.Record} {f : Config.LoadFault}
    (hload : s.configure tree vars o = (logs, .error f)) (hshallow : logsTooDeep least logs = false) :
    lint s tree vars o least err =
      if isCaught s.valueRoom f then
        .ok { code := 2, tree
              err := err ++ s.logText least
                (logs ++ [Log.error ("Invalid configuration: " ++ f.message s.valueRoom)]) }
      else .error (.config f) := by
  rw [lint, hload]
  dsimp only
  rw [hshallow, if_neg Bool.false_ne_true]

/-- A run with targets to lint comes to its configuration unless it fails earlier: at the files of
variables, or at a log level that stands for a format. If the configuration cannot be loaded, for whatever
reason, the run returns 2 with nothing but the log on the error stream and the files as they were, unless
the fault is not caught, or a line of the log is too deep to be shown: then it ends without a code. No
other run with accepted arguments returns 2. -/
theorem code_two_of_load_fault {r : Request} (hasked : request args = .ok r) :
    (∀ o, r = .run o → o.targets ≠ [] → o.dumpTrees = false →
      (∃ vars notes least, ComesToLint s tree env args o vars notes least) ∨
        (∃ e, s.environment tree env = .error e ∧ run s tree env args = .error (.variables e)) ∨
        ∃ format ∈ formats, Text.ofString format.1 = o.logLevel.flatMap raised ∧
          run s tree env args = .error (.level format.2)) ∧
    (∀ o vars notes least logs f, ComesToLint s tree env args o vars notes least →
      s.configure tree vars o = (logs, .error f) →
      (logsTooDeep least logs = true → run s tree env args = .error .log) ∧
      (logsTooDeep least logs = false → Uncaught s tree (configPath vars o) f →
        run s tree env args = .error (.config f)) ∧
      (logsTooDeep least logs = false → ¬ Uncaught s tree (configPath vars o) f →
        run s tree env args = .ok
          { code := 2, out := [], tree
            err := preamble notes ++ s.logText least
              (logs ++ [Log.error ("Invalid configuration: " ++ f.message s.valueRoom)]) })) ∧
    (∀ outcome, run s tree env args = .ok outcome → outcome.code = 2 →
      ∃ o vars notes least logs f, ComesToLint s tree env args o vars notes least ∧
        s.configure tree vars o = (logs, .error f) ∧ logsTooDeep least logs = false ∧
        ¬ Uncaught s tree (configPath vars o) f) := by
  refine ⟨?_, ?_, ?_⟩
  · rintro o rfl htargets hlints
    exact comesToLint_or_fails hasked htargets hlints
  · intro o vars notes least logs f hcomes hload
    have hfault : (s.configure tree vars o).2 = .error f := by rw [hload]
    have hcaught := isCaught_eq_false_iff hfault
    rw [hcomes.run_eq]
    refine ⟨fun hdeep => ?_, fun hshallow huncaught => ?_, fun hshallow hnot => ?_⟩
    · rw [lint, hload]
      exact if_pos hdeep
    · rw [← hcaught] at huncaught
      rw [lint_of_load_error hload hshallow, huncaught, if_neg Bool.false_ne_true]
    · rw [← hcaught, Bool.not_eq_false] at hnot
      rw [lint_of_load_error hload hshallow, if_pos hnot]
  · intro outcome hrun hcode
    rcases run_ok_cases hasked hrun with
      ⟨-, h⟩ | ⟨o, -, ⟨-, h, -⟩ | ⟨-, -, h⟩ | ⟨vars, notes, least, hcomes⟩⟩
    · omega
    · omega
    · omega
    · rw [hcomes.run_eq] at hrun
      rcases lint_ok_cases hrun with ⟨logs, f, hload, hshallow, hcaught⟩ | ⟨config, r, -, -, h, -⟩
      · refine ⟨o, vars, notes, least, logs, f, hcomes, hload, hshallow, fun huncaught => ?_⟩
        rw [not_isCaught_of_uncaught huncaught] at hcaught
        cases hcaught
      · -- The code for diagnostics is 0 or 1.
        rw [exitCode_total] at h
        split at h <;> omega

/-! ### A directory for a configuration, and a file that may not be read -/

def folder : Text := Text.ofString "d"
def locked : Text := Text.ofString "c.yaml"

def folderTree : Tree where
  top := [(script, .file []), (folder, .directory []), (locked, .file [])]
  refused := [locked]

def configured (path : Text) : List Text :=
  [script, Text.ofString "--config", path]

def configuredOptions (path : Text) : Options where
  targets := [script]
  config := some path

theorem comesToLint_folderTree {path : Text}
    (h : request (configured path) = .ok (.run (configuredOptions path))) :
    ComesToLint .builtin folderTree [] (configured path) (configuredOptions path) [] [] 20 where
  asked := h
  targets := List.cons_ne_nil script []
  lints := rfl
  level := rfl
  loaded := rfl

/-- The run does not come to its end. -/
theorem run_folderTree :
    request (configured folder) = .ok (.run (configuredOptions folder)) ∧
    request (configured locked) = .ok (.run (configuredOptions locked)) ∧
    run .builtin folderTree [] (configured folder) = .error (.config (.unreadable (.isDirectory folder))) ∧
    run .builtin folderTree [] (configured locked) = .error (.config (.unreadable (.refused locked))) := by
  have hfolder : request (configured folder) = .ok (.run (configuredOptions folder)) := rfl
  have hlocked : request (configured locked) = .ok (.run (configuredOptions locked)) := rfl
  refine ⟨hfolder, hlocked, ?_, ?_⟩
  · have hfault := (code_two_of_load_fault hfolder).2.1 _ _ _ _ [] _ (comesToLint_folderTree hfolder) rfl
    exact hfault.2.1 rfl (.directory rfl rfl (by decide))
  · have hfault := (code_two_of_load_fault hlocked).2.1 _ _ _ _ [] _ (comesToLint_folderTree hlocked) rfl
    exact hfault.2.1 rfl (.refused rfl (.inl rfl) (List.mem_singleton_self _))

/-! ## The code of a linting run -/

theorem returned_of_no_targets (hasked : request args = .ok (.run o)) (htargets : o.targets = [])
    (hrun : run s tree env args = .ok outcome) :
    outcome.code = 1 ∧ outcome.out = [] ∧ outcome.tree = tree := by
  rcases run_ok_cases hasked hrun with ⟨hhelp, -⟩ | ⟨o', ho, h⟩
  · cases hhelp
  · cases ho
    rcases h with ⟨-, h⟩ | ⟨hne, -⟩ | ⟨vars, notes, least, hcomes⟩
    · exact h
    · exact absurd htargets hne
    · exact absurd htargets hcomes.targets

/-- The report on some diagnostics is put out, for readers or for tools. -/
def IsReported (tree : Tree) (format : Format) (output : Option Text) (ds : List Diagnostic)
    (outcome : Outcome) : Prop :=
  match format with
  | .text => IsShown tree output (Report.text ds ++ "\n") outcome.out outcome.tree
  | .sarif => IsShown tree output ((Report.Sarif.log ds).render ++ "\n") outcome.out outcome.tree

/-- What a run with targets returns once its configuration is loaded: a code that goes by the diagnostics
that it has come to, and the report on these. -/
theorem returned_of_load_ok {notes : List Text} {config : Config} (hasked : request args = .ok (.run o))
    (hlints : o.dumpTrees = false) (htargets : o.targets ≠ [])
    (hvars : s.environment tree env = .ok (vars, notes))
    (hload : (s.configure tree vars o).2 = .ok config)
    (hrun : run s tree env args = .ok outcome) :
    ∃ r, (Batch.lintPaths s.toEngine tree o.targets config { jobs := o.jobs }).2 = .ok r ∧
      outcome.code = (if r.diagnostics = [] then 0 else 1) ∧
      IsReported tree o.format o.output r.diagnostics outcome := by
  have hcomes : ∃ least, ComesToLint s tree env args o vars notes least := by
    rcases run_ok_cases hasked hrun with ⟨hhelp, -⟩ | ⟨o', ho, h⟩
    · cases hhelp
    · cases ho
      rcases h with ⟨hnil, -⟩ | ⟨-, hdump, -⟩ | ⟨vars', notes', least, hcomes⟩
      · exact absurd hnil htargets
      · rw [hlints] at hdump
        cases hdump
      · exact ⟨least, hasked, htargets, hlints, hcomes.level, hvars⟩
  obtain ⟨least, hcomes⟩ := hcomes
  rw [hcomes.run_eq] at hrun
  rcases lint_ok_cases hrun with ⟨logs, f, hfault, -⟩ | ⟨config', r, hconfig, hlint, hcode, hshown⟩
  · rw [hfault] at hload
    cases hload
  · cases hload.symm.trans hconfig
    refine ⟨r, hlint, hcode.trans (exitCode_total r), ?_⟩
    unfold IsReported
    unfold report at hshown
    split <;> rename_i hformat <;> rw [hformat] at hshown <;> exact hshown

/-- Two linting runs over the same targets whose options differ in the format of the report, its place
and the number of tasks return the same code, if both return. It is 1 if the rule is on and one of the
files that are found is flagged, and 0 otherwise. Both runs come to the same result and put out the report
on its diagnostics, of which there are none just if the code is 0: the report for readers is then the line
that says so, and the report for tools is then without results. Without a target, either run returns 1
before it comes to anything. -/
theorem code_eq_of_targets {args₁ args₂ : List Text} {format : Format} {output : Option Text} {jobs : Int}
    {outcome₁ outcome₂ : Outcome} {notes : List Text} {config : Config}
    (h₁ : request args₁ = .ok (.run o))
    (h₂ : request args₂ = .ok (.run { o with format, output, jobs })) (hlints : o.dumpTrees = false)
    (hvars : s.environment tree env = .ok (vars, notes))
    (hload : (s.configure tree vars o).2 = .ok config)
    (hrun₁ : run s tree env args₁ = .ok outcome₁) (hrun₂ : run s tree env args₂ = .ok outcome₂) :
    outcome₁.code = outcome₂.code ∧
    (o.targets = [] → outcome₁.code = 1 ∧ outcome₁.out = [] ∧ outcome₁.tree = tree) ∧
    (o.targets ≠ [] →
      (outcome₁.code = 1 ↔ config.enabled = true ∧ ∃ path ∈ (Discovery.collect tree o.targets).2,
        Batch.IsFlagged s.toEngine tree config.deps path) ∧
      (outcome₁.code = 0 ↔ ¬ (config.enabled = true ∧ ∃ path ∈ (Discovery.collect tree o.targets).2,
        Batch.IsFlagged s.toEngine tree config.deps path)) ∧
      ∃ r, (Batch.lintPaths s.toEngine tree o.targets config { jobs := o.jobs }).2 = .ok r ∧
        (Batch.lintPaths s.toEngine tree o.targets config { jobs }).2 = .ok r ∧
        IsReported tree o.format o.output r.diagnostics outcome₁ ∧
        IsReported tree format output r.diagnostics outcome₂ ∧
        (outcome₁.code = 0 ↔ r.diagnostics = []) ∧
        (outcome₁.code = 0 ↔
          Report.text r.diagnostics = Text.ofString "Dusty efficiency linter: No issues found.") ∧
        (outcome₁.code = 0 ↔ Report.Sarif.results? (Report.Sarif.log r.diagnostics) = some [])) := by
  by_cases hnil : o.targets = []
  · have hreturned := returned_of_no_targets h₁ hnil hrun₁
    obtain ⟨hcode₂, -⟩ := returned_of_no_targets h₂ hnil hrun₂
    exact ⟨by rw [hreturned.1, hcode₂], fun _ => hreturned, fun hne => absurd hnil hne⟩
  · obtain ⟨r₁, hlint₁, hcode₁, hshown₁⟩ := returned_of_load_ok h₁ hlints hnil hvars hload hrun₁
    obtain ⟨r₂, hlint₂, hcode₂, hshown₂⟩ := returned_of_load_ok h₂ hlints hnil hvars hload hrun₂
    have hr : r₂ = r₁ := by
      rw [(Batch.result_eq (fun _ => .refl _) hlint₂).1, (Batch.result_eq (fun _ => .refl _) hlint₁).1]
    subst hr
    have hzero : outcome₁.code = 0 ↔ r₂.diagnostics = [] := by
      rw [hcode₁]
      split <;> simp [*]
    have hone : outcome₁.code = 1 ↔ r₂.diagnostics ≠ [] := by
      rw [hcode₁]
      split <;> simp [*]
    have hflagged := Batch.diagnostics_ne_nil_iff (fun _ => .refl _) hlint₁
    refine ⟨by rw [hcode₁, hcode₂], fun h => absurd h hnil, fun _ => ⟨?_, ?_, r₂, hlint₁, hlint₂, hshown₁,
      hshown₂, hzero, ?_, ?_⟩⟩
    · rw [hone, hflagged]
    · rw [hzero, ← hflagged, not_not]
    · rw [hzero]
      exact Report.text_eq_clean_iff.symm
    · rw [hzero, Report.Sarif.results?_log, Option.some_inj, List.map_eq_nil_iff]

/-! ### A finding beside a file that cannot be parsed and one that cannot be read -/

def mixedTargets : List Text := [Batch.broken, Batch.heavy, Batch.locked]

def toolArgs : List Text :=
  mixedTargets ++ ["--format", "sarif", "--jobs", "2"].map Text.ofString

/-- What there is to say about these files. -/
def mixedReport : List Diagnostic :=
  Diagnostic.emit [Text.ofString "vue"] Batch.heavy .warning

def mixedLines : List Text :=
  [[], "Dusty Efficiency Linter Results:", "=================================", "a.js:",
    "  warning: Heavy dependency 'vue' should be lazily loaded to improve startup performance. " ++
      ("Consider using dynamic import() or require() inside functions. " ++
        "[lazy-import-heavy-js-deps]"),
    [], "Found 1 efficiency issues."]

theorem text_mixedReport : Report.text mixedReport = Text.join "\n" mixedLines := by
  decide +kernel

theorem run_mixedTree {args : List Text} {format : Format} {jobs : Int}
    (hasked : request args = .ok (.run { targets := mixedTargets, format, jobs }))
    (hfound : (Batch.lintPaths .builtin Batch.mixedTree mixedTargets {} { jobs }).2.toOption.map
      (·.diagnostics) = some mixedReport)
    (hbytes : (report format mixedReport).HasBytes) :
    (∃ r, (Batch.lintPaths .builtin Batch.mixedTree mixedTargets {} { jobs }).2 = .ok r ∧
      r.diagnostics = mixedReport) ∧
    ∃ outcome, run .builtin Batch.mixedTree [] args = .ok outcome ∧ outcome.code = 1 := by
  cases hlint : (Batch.lintPaths .builtin Batch.mixedTree mixedTargets {} { jobs }).2 with
  | error f =>
    rw [hlint] at hfound
    cases hfound
  | ok r =>
    rw [hlint] at hfound
    have hreport : r.diagnostics = mixedReport := Option.some.inj hfound
    refine ⟨⟨r, rfl, hreport⟩, ?_⟩
    have hcomes : ComesToReport .builtin Batch.mixedTree [] args
        { targets := mixedTargets, format, jobs } {} r := by
      refine ⟨[], [], 20, [], ?_, rfl, rfl, hlint⟩
      exact { asked := hasked, targets := List.cons_ne_nil _ _, lints := rfl, level := rfl, loaded := rfl }
    have hprinted : IsWritable Batch.mixedTree none := fun _ h => by cases h
    obtain ⟨err, hrun⟩ := run_eq_deliver hcomes
    rw [← hreport] at hbytes
    obtain ⟨last, out, after, hdeliver, -⟩ := deliver_of_hasBytes hprinted hbytes
    refine ⟨_, hrun.trans (by rw [hdeliver]; rfl), ?_⟩
    rw [exitCode_total, hreport]
    rfl

/-- Both runs print the finding, one for readers and one for tools. -/
theorem code_eq_mixedTree : ∃ outcome₁ outcome₂,
    run .builtin Batch.mixedTree [] mixedTargets = .ok outcome₁ ∧
    run .builtin Batch.mixedTree [] toolArgs = .ok outcome₂ ∧
    outcome₁.code = outcome₂.code ∧ outcome₁.code = 1 ∧
    outcome₁.out = Text.join "\n" mixedLines ++ "\n" ∧
    outcome₂.out = (Report.Sarif.log mixedReport).render ++ "\n" ∧
    ∃ path ∈ (Discovery.collect Batch.mixedTree mixedTargets).2,
      Batch.IsFlagged .builtin Batch.mixedTree Dependency.defaults path := by
  have h₁ : request mixedTargets = .ok (.run { targets := mixedTargets }) := rfl
  have h₂ : request toolArgs = .ok (.run { targets := mixedTargets, format := .sarif, jobs := 2 }) := rfl
  have hall : ∀ d ∈ mixedReport, d.HasBytes :=
    (Diagnostic.hasBytes_emit _ _ _).2 (by decide)
  obtain ⟨⟨r, hr, hreport⟩, outcome₁, hrun₁, hcode⟩ :=
    run_mixedTree h₁ (by decide +kernel) ((hasBytes_report _ _).2 hall)
  obtain ⟨-, outcome₂, hrun₂, -⟩ := run_mixedTree h₂ (by decide +kernel) ((hasBytes_report _ _).2 hall)
  have hvars : Setting.builtin.environment Batch.mixedTree [] = .ok ([], []) := rfl
  obtain ⟨hsame, -, hlinted⟩ := code_eq_of_targets h₁ h₂ rfl hvars rfl hrun₁ hrun₂
  obtain ⟨hone, -, r', hr', -, hshown₁, hshown₂, -⟩ := hlinted (List.cons_ne_nil _ _)
  cases hr.symm.trans hr'
  rw [hreport] at hshown₁ hshown₂
  obtain ⟨-, -, -, hout₁, -⟩ := hshown₁
  obtain ⟨-, -, -, hout₂, -⟩ := hshown₂
  rw [text_mixedReport] at hout₁
  exact ⟨outcome₁, outcome₂, hrun₁, hrun₂, hsame, hcode, hout₁, hout₂, (hone.1 hcode).2⟩

end Cli

end LazyLint
