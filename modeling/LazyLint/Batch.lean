import LazyLint.Discovery
import LazyLint.Linter
import LazyLint.Text.Lines

/-!
# Linting many files

The script files of some targets are linted one after another by one linter, or side by side by a
linter each. Either way the results stand in the order in which the files were found, whatever the
order in which the side-by-side tasks end.
-/

namespace LazyLint.Batch

open Files (Tree)

/-- What became of a file. -/
structure Outcome where
  found : List Diagnostic := []
  failures : List ParseFailure := []
  /-- The file could be read. -/
  wasRead : Bool := true

/-- What linting one file leaves. -/
structure Task where
  linter : Linter
  logs : List Log.Record
  outcome : Except Linter.Fault Outcome

def lintOne (e : Engine) (tree : Tree) (l : Linter) (path : Text) : Task :=
  match tree.read path with
  | .error f =>
    { linter := l
      logs := [Log.warning ("Unable to read " ++ path ++ ": " ++ f.message)]
      outcome := .ok { wasRead := false } }
  | .ok bytes =>
    let r := l.lint e path (Lines.decode bytes)
    { linter := r.linter
      logs := r.logs
      outcome := r.found.map fun found =>
        { found, failures := r.linter.failures.drop l.failures.length } }

/-- Outcomes of files, and what was logged. -/
abbrev Outcomes := List Log.Record × Except Linter.Fault (List Outcome)

/-- Lint files one after another by one linter, up to the first fault. -/
def serial (e : Engine) (tree : Tree) (l : Linter) : List Text → Outcomes
  | [] => ([], .ok [])
  | path :: paths =>
    let t := lintOne e tree l path
    match t.outcome with
    | .error f => (t.logs, .error f)
    | .ok o =>
      let (logs, rest) := serial e tree t.linter paths
      (t.logs ++ logs, rest.map (o :: ·))

/-- The outcomes of tasks by number, taken in the order in which the tasks end, up to the first
fault. -/
def gather (tasks : List Task) : List Nat → Except Linter.Fault (List (Nat × Outcome))
  | [] => .ok []
  | i :: is =>
    match tasks[i]? with
    | none => gather tasks is
    | some t => do
      let o ← t.outcome
      return (i, o) :: (← gather tasks is)

/-- Lint files side by side, each by a linter of its own; `order` is the order in which the tasks
end. -/
def sideBySide (e : Engine) (tree : Tree) (config : Config) (order : List Nat) (paths : List Text) :
    Outcomes :=
  let tasks := paths.map (lintOne e tree { config })
  (tasks.flatMap (·.logs), do
    let ended ← gather tasks order
    return (List.range paths.length).filterMap fun i => (ended.find? (·.1 = i)).map (·.2))

structure Result where
  diagnostics : List Diagnostic := []
  files : List Text := []
  parseFailures : List ParseFailure := []
  readFailures : List Text := []

def Result.total (r : Result) : Nat := r.diagnostics.length

def Result.add (r : Result) (path : Text) (o : Outcome) : Result :=
  if o.wasRead then
    { r with
      files := r.files ++ [path]
      diagnostics := r.diagnostics ++ o.found
      parseFailures := r.parseFailures ++ o.failures }
  else { r with readFailures := r.readFailures ++ [path] }

/-- The result of files and their outcomes. -/
def assemble (paths : List Text) (outcomes : List Outcome) : Result :=
  (paths.zip outcomes).foldl (fun r (path, o) => r.add path o) {}

/-- How the work is spread. -/
structure Schedule where
  /-- The number of tasks side by side; zero or less stands for one for each processor. -/
  jobs : Int := 1
  processors : Nat := 4
  /-- The order in which so many tasks end. -/
  order : Nat → List Nat := List.range

/-- The number of tasks side by side that a schedule comes to. -/
def Schedule.width (s : Schedule) : Nat :=
  if s.jobs ≤ 0 then max 1 s.processors else s.jobs.toNat

/-- Find the script files of some targets and lint them. -/
def lintPaths (e : Engine) (tree : Tree) (targets : List Text) (config : Config) (s : Schedule) :
    List Log.Record × Except Linter.Fault Result :=
  let (notes, paths) := Discovery.collect tree targets
  let (logs, outcomes) :=
    if s.width = 1 || paths.length ≤ 1 then serial e tree { config } paths
    else sideBySide e tree config (s.order paths.length) paths
  match outcomes with
  | .error f => (notes ++ logs, .error f)
  | .ok outcomes =>
    let r := assemble paths outcomes
    let summary := Log.debug
      ("Linted " ++ Text.ofNat r.files.length ++ " files, " ++ Text.ofNat r.total ++ " diagnostics")
    (notes ++ logs ++ [summary], .ok r)

end LazyLint.Batch
