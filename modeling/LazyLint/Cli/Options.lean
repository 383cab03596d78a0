import LazyLint.Text.Number
import LazyLint.Text.Quoted

/-!
# Command-line options

Options may stand before or after the targets but not between them. A long option may be cut short
as long as only one option begins so, and may be joined to its value by an equals sign; `--` ends the
options. The arguments are sorted into options and plain words first and then taken from left to
right, so that an ambiguous option counts before anything else that is wrong.
-/

namespace LazyLint.Cli

inductive Format where
  | text
  | sarif
  deriving Repr, DecidableEq

/-- What a command line asks for. -/
structure Options where
  targets : List Text := []
  config : Option Text := none
  format : Format := .text
  output : Option Text := none
  jobs : Int := 1
  logLevel : Text := Text.ofString "INFO"
  dumpTrees : Bool := false

inductive Flag where
  | help
  | config
  | format
  | output
  | jobs
  | logLevel
  | dumpTrees
  deriving Repr, DecidableEq

namespace Flag

/-- The spellings of options, in the order in which they are listed. -/
def spellings : List (String × Flag) :=
  [("-h", .help), ("--help", .help), ("--config", .config), ("--format", .format),
   ("--output", .output), ("--jobs", .jobs), ("--log_level", .logLevel), ("--dump_ast", .dumpTrees)]

def ofSpelling (t : Text) : Option Flag :=
  (spellings.find? fun s => Text.ofString s.1 == t).map (·.2)

/-- The name of an option in messages. -/
def name (f : Flag) : String :=
  "/".intercalate ((spellings.filter fun s => s.2 = f).map (·.1))

def takesValue : Flag → Bool
  | .help | .dumpTrees => false
  | _ => true

end Flag

inductive UsageFault where
  | ambiguous (arg : Text) (spellings : List String)
  | noValue (f : Flag)
  | ignored (f : Flag) (value : Text)
  | choice (value : Text)
  | number (value : Text)
  | unrecognized (args : List Text)

def UsageFault.message : UsageFault → Text
  | .ambiguous arg spellings =>
    "ambiguous option: " ++ arg ++ Text.ofString (" could match " ++ ", ".intercalate spellings)
  | .noValue f => Text.ofString ("argument " ++ f.name ++ ": expected one argument")
  | .ignored f value =>
    Text.ofString ("argument " ++ f.name ++ ": ignored explicit argument ") ++ value.quoted
  | .choice value =>
    "argument --format: invalid choice: " ++ value.quoted ++ " (choose from 'text', 'sarif')"
  | .number value => "argument --jobs: invalid int value: " ++ value.quoted
  | .unrecognized args => "unrecognized arguments: " ++ Text.join " " args

/-! ## Sorting the arguments -/

def dash : CodePoint := 0x2D
def equals : CodePoint := 0x3D

inductive Arg where
  /-- A plain word. -/
  | word (t : Text)
  /-- The mark that ends the options. -/
  | mark
  /-- An option; `value` is what is joined to it and `bySign` says that an equals sign joins them. -/
  | flag (f : Flag) (isShort : Bool) (bySign : Bool) (value : Option Text)
  /-- Something that looks like an option. -/
  | unknown (t : Text)

/-- A negative number, which is no option. -/
def isNegativeNumber (t : Text) : Bool :=
  let isDigits (t : Text) : Bool := ! t.isEmpty && t.all (·.decimal?.isSome)
  let t := if t.getLast? = some 0x0A then t.dropLast else t
  match t with
  | c :: body =>
    let whole := body.takeWhile (·.decimal?.isSome)
    c = dash && (isDigits body ||
      match body.drop whole.length with
      | p :: fraction => p = 0x2E && isDigits fraction
      | [] => false)
  | [] => false

/-- The text before an equals sign, and the text after it if there is one. -/
def splitSign (t : Text) : Text × Option Text :=
  let before := t.takeWhile (· ≠ equals)
  match t.drop before.length with
  | _ :: value => (before, some value)
  | [] => (before, none)

/-- The options that an argument may be short for. -/
def candidates (t : Text) : List (String × Arg) :=
  match t with
  | _ :: d :: rest =>
    if d = dash then
      let (stem, value) := splitSign t
      (Flag.spellings.filter fun s => stem.isPrefixOf (Text.ofString s.1)).map fun s =>
        (s.1, .flag s.2 false value.isSome value)
    else
      Flag.spellings.filterMap fun s =>
        if Text.ofString s.1 == t.take 2 then some (s.1, .flag s.2 true false (some rest)) else none
  | _ => []

def classify (t : Text) : Except UsageFault Arg :=
  if t.length ≤ 1 || t.head? ≠ some dash then
    .ok (.word t)
  else
    let isShort (t : Text) : Bool := t.tail.head? ≠ some dash
    match Flag.ofSpelling t, splitSign t with
    | some f, _ => .ok (.flag f (isShort t) false none)
    | none, (stem, value) =>
      match value, Flag.ofSpelling stem with
      | some value, some f => .ok (.flag f (isShort stem) true (some value))
      | _, _ =>
        match candidates t with
        | [(_, a)] => .ok a
        | [] => .ok (if isNegativeNumber t || t.contains 0x20 then .word t else .unknown t)
        | several => .error (.ambiguous t (several.map (·.1)))

/-- What the arguments are; after the mark that ends the options all are plain words. -/
def classifyAll : List Text → Except UsageFault (List Arg)
  | [] => .ok []
  | t :: ts =>
    if t = [dash, dash] then .ok (.mark :: ts.map .word)
    else do return (← classify t) :: (← classifyAll ts)

/-! ## Taking the arguments -/

/-- An argument as it was written, for those that are no options. -/
def Arg.text : Arg → Text
  | .word t | .unknown t => t
  | .mark => [dash, dash]
  | .flag .. => []

inductive Request where
  | help
  | run (o : Options)

def set (o : Options) (f : Flag) (value : Text) : Except UsageFault Options :=
  match f with
  | .config => .ok { o with config := some value }
  | .output => .ok { o with output := some value }
  | .logLevel => .ok { o with logLevel := value }
  | .format =>
    if value == Text.ofString "text" then .ok { o with format := .text }
    else if value == Text.ofString "sarif" then .ok { o with format := .sarif }
    else .error (.choice value)
  | .jobs =>
    match value.int? 10 with
    | some n => .ok { o with jobs := n }
    | none => .error (.number value)
  | .help | .dumpTrees => .ok o

/-- What is wrong with the letters joined to a short option without a value, if anything is: they may
repeat it, and other letters do not count once help is asked for. -/
def shortFault? (f : Flag) (bySign : Bool) : Text → Option UsageFault
  | [] => if bySign then some (.ignored f []) else none
  | c :: rest =>
    if bySign || c = dash then some (.ignored f (c :: rest))
    else if c = 0x68 then
      match rest with
      | [] => none
      | e :: value => if e = equals then some (.ignored f value) else shortFault? f false rest
    else none

/-- What was taken so far. -/
structure Taken where
  options : Options := {}
  /-- The targets were met. -/
  hasTargets : Bool := false
  extras : List Text := []

/-- The words of the targets: the first mark among them does not count. -/
def targetWords (args : List Arg) : List Text :=
  let rec dropMark : List Arg → List Arg
    | [] => []
    | .mark :: rest => rest
    | .word t :: rest => if t = [dash, dash] then rest else .word t :: dropMark rest
    | a :: rest => a :: dropMark rest
  (dropMark args).map Arg.text

/-- With a run of plain words: the targets, or words too many. -/
def Taken.words (t : Taken) (args : List Arg) : Taken :=
  if args.isEmpty then t
  else if t.hasTargets then { t with extras := t.extras ++ args.map Arg.text }
  else { t with options := { t.options with targets := targetWords args }, hasTargets := true }

/-- Take the arguments from left to right; `run` holds the plain words since the last option, the
latest first. -/
def take : Taken → List Arg → List Arg → Except UsageFault Request
  | t, run, [] =>
    let t := t.words run.reverse
    if t.extras.isEmpty then .ok (.run t.options) else .error (.unrecognized t.extras)
  | t, run, .flag f isShort bySign (some value) :: rest =>
    let t := t.words run.reverse
    if f.takesValue then
      match set t.options f value with
      | .ok options => take { t with options } [] rest
      | .error e => .error e
    else if isShort then
      match shortFault? f bySign value with
      | some e => .error e
      | none => .ok .help
    else .error (.ignored f value)
  | t, run, [.flag f _ _ none] =>
    let t := t.words run.reverse
    if f.takesValue then .error (.noValue f)
    else if f = .help then .ok .help
    else take { t with options := { t.options with dumpTrees := true } } [] []
  | t, run, .flag f _ _ none :: a :: rest =>
    let t := t.words run.reverse
    if f.takesValue then
      match a with
      | .word value =>
        match set t.options f value with
        | .ok options => take { t with options } [] rest
        | .error e => .error e
      | _ => .error (.noValue f)
    else if f = .help then .ok .help
    else take { t with options := { t.options with dumpTrees := true } } [] (a :: rest)
  | t, run, .unknown u :: rest =>
    let t := t.words run.reverse
    take { t with extras := t.extras ++ [u] } [] rest
  | t, run, a :: rest => take t (a :: run) rest

def request (args : List Text) : Except UsageFault Request := do
  take {} [] (← classifyAll args)

/-! ## Texts -/

def usage : String :=
  "usage: dusty [-h] [--config CONFIG] [--format \x7btext,sarif\x7d] [--output OUTPUT]\n" ++
  "             [--jobs JOBS] [--log_level LOG_LEVEL] [--dump_ast]\n" ++
  "             [targets ...]\n"

def help : String :=
  usage ++
  "\nReport top-level imports of heavy JavaScript dependencies that should be\n" ++
  "lazily loaded.\n" ++
  "\npositional arguments:\n" ++
  "  targets               JavaScript files (.js, .mjs) or directories to scan.\n" ++
  "\noptions:\n" ++
  "  -h, --help            show this help message and exit\n" ++
  "  --config CONFIG       Path to a YAML rule configuration. Defaults to\n" ++
  "                        $DUSTY_CONFIG if set.\n" ++
  "  --format \x7btext,sarif\x7d\n" ++
  "                        Report format. Defaults to text.\n" ++
  "  --output OUTPUT       Write the report to this file instead of stdout.\n" ++
  "  --jobs JOBS           Number of worker threads; 0 means one per CPU.\n" ++
  "                        Defaults to 1.\n" ++
  "  --log_level LOG_LEVEL\n" ++
  "                        Logging level (e.g. DEBUG, INFO, WARNING, ERROR).\n" ++
  "                        Defaults to INFO.\n" ++
  "  --dump_ast            Print the lowered syntax tree of every file instead of\n" ++
  "                        linting.\n"

/-- What is printed for a command line that is at fault. -/
def UsageFault.report (f : UsageFault) : Text :=
  Text.ofString usage ++ "dusty: error: " ++ f.message ++ "\n"

end LazyLint.Cli
