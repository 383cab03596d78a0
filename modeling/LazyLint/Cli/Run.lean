import LazyLint.Ast.Dump
import LazyLint.Batch
import LazyLint.Cli.Options
import LazyLint.Config.File
import LazyLint.Report.Sarif
import LazyLint.Report.Text
import LazyLint.Text.Encodable

/-!
# A run of the command

A run is a function of its setting, the files it sees, the environment and the arguments. It ends with
an exit code, the text on the two output streams and the files as it leaves them, or with a fault that
nothing in it catches.

Exit code 0 says that there is nothing to report, 1 that there is a diagnostic or that no target was
given, 2 that the arguments or the configuration are at fault.
-/

namespace LazyLint.Cli

open Files (Tree)

/-- What a run is made of that is not its own: the readers of the three languages that it meets, and the
interpreter that it runs on. -/
structure Setting extends Engine where
  /-- The reader of files of variables: the environment with what they add to it, and notes. -/
  environment : Tree → Config.Environment → Except Raised (Config.Environment × List Text)
  /-- The loader of configuration documents. -/
  documents : Config.Loader
  /-- The number of levels of a value that can be written. -/
  valueRoom : Nat
  /-- What is shown in place of a log line that cannot be written. -/
  complaint : Log.Record → Text

/-- A text that a run cannot put out, since it has no bytes. -/
structure Unencodable extends Text.EncodeFault where
  /-- The files as the run leaves them. -/
  tree : Tree

/-- What ends a run without an exit code. -/
inductive Fault where
  /-- The name of the log level stands for something that is no level. -/
  | level (e : Raised)
  /-- The files of variables cannot be read. -/
  | variables (e : Raised)
  /-- The configuration cannot be loaded. -/
  | config (f : Config.LoadFault)
  /-- A log line shows a value that is nested too deeply. -/
  | log
  /-- A file stops the linter. -/
  | lint (f : Linter.Fault)
  /-- The tree of a file cannot be shown. -/
  | dump (f : Ast.Fault)
  /-- The report has no bytes. -/
  | encode (f : Unencodable)
  /-- The report cannot be written. -/
  | write (f : Files.Fault)

def Fault.message (valueRoom : Nat) : Fault → Text
  | .level e | .variables e => e.why
  | .config f => f.message valueRoom
  | .log => Value.Trouble.depth.message
  | .lint f => f.message
  | .dump f => f.message
  | .encode f => f.message
  | .write f => f.message

structure Outcome where
  code : Nat
  out : Text := []
  err : Text := []
  /-- The files as the run leaves them. -/
  tree : Tree

/-! ## Logging -/

/-- Letters outside ASCII whose big forms are in ASCII. -/
def raisedOutside : List (CodePoint × String) :=
  [(0xDF, "SS"), (0x131, "I"), (0x17F, "S"), (0xFB00, "FF"), (0xFB01, "FI"), (0xFB02, "FL"),
   (0xFB03, "FFI"), (0xFB04, "FFL"), (0xFB05, "ST"), (0xFB06, "ST")]

/-- The big form of a letter, as far as it is in ASCII. -/
def raised (c : CodePoint) : Text :=
  if h : 0x61 ≤ c.val ∧ c.val ≤ 0x7A then [⟨c.val - 0x20, by omega⟩]
  else ((raisedOutside.find? fun l => l.1 = c).map fun l => Text.ofString l.2).getD [c]

/-- The levels that have a name, as ranks. -/
def levels : List (String × Nat) :=
  [("NOTSET", 0), ("DEBUG", 10), ("INFO", 20), ("WARN", 30), ("WARNING", 30), ("ERROR", 40),
   ("CRITICAL", 50), ("FATAL", 50)]

/-- The level that an unknown name stands for. -/
def defaultLevel : Nat := 20

/-- Names that stand for the formats of log lines and not for a level, and what is raised for them. -/
def formats : List (String × Raised) :=
  [("BASIC_FORMAT",
    { kind := "ValueError", why := "Unknown level: '%(levelname)s:%(name)s:%(message)s'" }),
   ("_STYLES",
    { kind := "TypeError"
      why := ("Level not an integer or a valid string: " ++
        "\x7b'%': (<class 'logging.PercentStyle'>, '%(levelname)s:%(name)s:%(message)s'), " ++
        "'\x7b': (<class 'logging.StrFormatStyle'>, " ++
          "'\x7blevelname\x7d:\x7bname\x7d:\x7bmessage\x7d'), " ++
        "'$': (<class 'logging.StringTemplateStyle'>, " ++
          "'$\x7blevelname\x7d:$\x7bname\x7d:$\x7bmessage\x7d')\x7d" : String) })]

/-- The rank from which on records are shown. -/
def threshold (name : Text) : Except Fault Nat :=
  let name := name.flatMap raised
  match formats.find? fun f => Text.ofString f.1 == name with
  | some (_, e) => .error (.level e)
  | none => .ok (((levels.find? fun l => Text.ofString l.1 == name).map (·.2)).getD defaultLevel)

/-- The line of a record, or what is shown in its place. -/
def Setting.logLine (s : Setting) (r : Log.Record) : Text :=
  match r.trouble with
  | none => "[" ++ Text.ofString r.level.name ++ "] " ++ r.message.spelledOut ++ "\n"
  | some _ => s.complaint r

/-- The records from a rank on. -/
def shownRecords (least : Nat) (rs : List Log.Record) : List Log.Record :=
  rs.filter fun r => least ≤ r.level.rank

/-- The lines of the records from a rank on. -/
def Setting.logText (s : Setting) (least : Nat) (rs : List Log.Record) : Text :=
  (shownRecords least rs).flatMap s.logLine

/-- A record from a rank on shows a value that is nested too deeply. It ends the run; what else cannot be
written only costs its line. -/
def logsTooDeep (least : Nat) (rs : List Log.Record) : Bool :=
  (shownRecords least rs).any fun r => r.trouble = some .depth

/-! ## Showing trees -/

/-- What showing a file comes to: what is logged, and the text, if there is one. -/
def dumpOne (e : Engine) (tree : Tree) (path : Text) : List Log.Record × Except Fault (Option Text) :=
  let warn (what why : Text) : Log.Record := Log.warning ("Unable to " ++ what ++ " " ++ path ++ ": " ++ why)
  match tree.read path with
  | .error f => ([warn "read" f.message], .ok none)
  | .ok bytes =>
    match Parse.parse e (Lines.decode bytes) with
    | (logs, .error (.escape f)) => (logs, .error (.lint (.escape f)))
    | (logs, .error (.refused _ why)) =>
      (logs ++ [warn "parse" (Text.ofString why.message)], .ok none)
    | (logs, .ok root) =>
      match root.dump e.room with
      | .error .tooDeep => (logs ++ [warn "dump" "syntax tree is nested too deeply"], .ok none)
      | .error f => (logs, .error (.dump f))
      | .ok lines => (logs, .ok (some (Ast.titled path lines)))

/-- Show files one after another. -/
def dumpAll (e : Engine) (tree : Tree) : List Text → Except Fault (List Log.Record × Text)
  | [] => .ok ([], [])
  | path :: paths => do
    let (logs, shown) := dumpOne e tree path
    let text ←
      match ← shown with
      | none => pure []
      | some t =>
        match t.encodeFault? with
        | some f => throw (.encode { f with tree })
        | none => pure (t ++ [0x0A])
    let (more, rest) ← dumpAll e tree paths
    return (logs ++ more, text ++ rest)

/-! ## Linting -/

/-- A fault of the configuration that ends a run with an exit code: the others are not caught. -/
def isCaught (valueRoom : Nat) : Config.LoadFault → Bool
  | .missing _ | .document _ (.malformed _) | .document _ (.value _) => true
  | .unreadable _ | .document _ (.other _) => false
  | .invalid f => ! f.isTooDeep valueRoom

def report (format : Format) (ds : List Diagnostic) : Text :=
  match format with
  | .text => Report.text ds
  | .sarif => (Report.Sarif.log ds).render

def exitCode (total : Nat) : Nat :=
  if 0 < total then 1 else 0

/-- A path that was given and is not empty. -/
def given (path : Option Text) : Option Text :=
  path.filter fun p => ! p.isEmpty

/-- Print a report, or write it to the file with a path if one is given. The file is emptied before the
report gets its bytes. -/
def deliver (tree : Tree) (output : Option Text) (text : Text) :
    Except Fault (List Log.Record × Text × Tree) :=
  match given output with
  | none => do
    if let some f := text.encodeFault? then throw (.encode { f with tree })
    return ([], text ++ "\n", tree)
  | some path => do
    let emptied ← (tree.write path []).mapError .write
    let bytes ← (text ++ "\n").encode.mapError fun f => .encode { f with tree := emptied }
    let tree ← (tree.write path bytes).mapError .write
    return ([Log.info ("Report written to " ++ path)], [], tree)

/-- The path of the configuration: the one that is given, or else the one in the environment. -/
def configPath (env : Config.Environment) (o : Options) : Option Text :=
  given o.config <|> (env.find? (·.1 == Text.ofString Config.pathVariable)).map (·.2)

/-- The configuration of a run, and what loading it logs. -/
def Setting.configure (s : Setting) (tree : Tree) (env : Config.Environment) (o : Options) :
    List Log.Record × Except Config.LoadFault Config :=
  Config.load s.documents s.valueRoom tree (configPath env o) env

/-- Load the configuration, lint the targets and report. -/
def lint (s : Setting) (tree : Tree) (env : Config.Environment) (o : Options) (least : Nat)
    (err : Text) : Except Fault Outcome :=
  let (logs, loaded) := s.configure tree env o
  if logsTooDeep least logs then .error .log
  else
    match loaded with
    | .error f =>
      if isCaught s.valueRoom f then
        let note := Log.error ("Invalid configuration: " ++ f.message s.valueRoom)
        .ok { code := 2, err := err ++ s.logText least (logs ++ [note]), tree }
      else .error (.config f)
    | .ok config =>
      match Batch.lintPaths s.toEngine tree o.targets config { jobs := o.jobs } with
      | (_, .error f) => .error (.lint f)
      | (more, .ok result) => do
        let (last, out, tree) ← deliver tree o.output (report o.format result.diagnostics)
        return {
          code := exitCode result.total
          out
          err := err ++ s.logText least (logs ++ more ++ last)
          tree }

/-! ## Runs -/

def noTargets : String :=
  "Usage: dusty <files-or-directories>\nExample: dusty lib/ test/ benchmark/\n"

/-- A run with options, after some text on the error stream. -/
def runWith (s : Setting) (tree : Tree) (env : Config.Environment) (o : Options) (err : Text) :
    Except Fault Outcome := do
  let least ← threshold (if o.logLevel.isEmpty then "INFO" else o.logLevel)
  if o.targets.isEmpty then return { code := 1, err := err ++ Text.ofString noTargets, tree }
  else if o.dumpTrees then
    let (notes, paths) := Discovery.collect tree o.targets
    let (logs, out) ← dumpAll s.toEngine tree paths
    return { code := 0, out, err := err ++ s.logText least (notes ++ logs), tree }
  else lint s tree env o least err

def run (s : Setting) (tree : Tree) (env : Config.Environment) (args : List Text) :
    Except Fault Outcome := do
  let (env, notes) ← (s.environment tree env).mapError .variables
  let err := notes.flatMap fun n => n.spelledOut ++ [0x0A]
  match request args with
  | .error e => return { code := 2, err := err ++ e.report.spelledOut, tree }
  | .ok .help => return { code := 0, out := help, err, tree }
  | .ok (.run o) => runWith s tree env o err

end LazyLint.Cli
