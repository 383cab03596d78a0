import LazyLint.Config.File
import LazyLint.Text.Lines

/-!
# Files of variables

One reader of files of variables. A file in the directory of the run adds to the environment: a line
`NAME=value` each, with blanks around the equals sign, an `export` before the name, quotes around the
value, comments, and other variables put in by `${NAME}` or `${NAME:-default}`. Variables that are set
already are left alone, and of several lines for one name the last counts.
-/

namespace LazyLint.Config.Variables

/-! ## Lines -/

/-- Blanks other than line feeds. -/
def isInlineBlank (c : Char) : Bool :=
  c ≠ '\n' && (CodePoint.ofChar c).isBlank

def isBlank (c : Char) : Bool :=
  (CodePoint.ofChar c).isBlank

/-- The text of a quoted value up to the closing quote, and the rest; a quote after a backslash does
not close it. If no quote does, the last one after a backslash does after all. -/
def quotedBody (q : Char) : List Char → Option (List Char × List Char)
  | [] => none
  | [c] => if c = q then some ([], []) else none
  | c :: d :: ds =>
    if c = q then some ([], d :: ds)
    else if c = '\\' && d = q then
      match quotedBody q ds with
      | some (body, rest) => some (c :: d :: body, rest)
      | none => some ([c], ds)
    else (quotedBody q (d :: ds)).map fun (body, rest) => (c :: body, rest)

/-- What a letter after a backslash stands for between double quotes. -/
def escapes : List (Char × Nat) :=
  [('\\', 0x5C), ('\'', 0x27), ('"', 0x22), ('a', 7), ('b', 8), ('f', 12), ('n', 10), ('r', 13),
   ('t', 9), ('v', 11)]

/-- The text with escapes decoded; between single quotes only the first two count. -/
def unescape (table : List (Char × Nat)) : List Char → List Char
  | [] => []
  | '\\' :: c :: cs =>
    match table.find? (·.1 = c) with
    | some (_, n) => Char.ofNat n :: unescape table cs
    | none => '\\' :: unescape table (c :: cs)
  | c :: cs => c :: unescape table cs

/-- A value without quotes, up to a comment after a blank. -/
def uncommented : List Char → List Char
  | [] => []
  | c :: cs =>
    if isBlank c && (cs.dropWhile isBlank).head? = some '#' then [] else c :: uncommented cs

def stripRight (cs : List Char) : List Char :=
  (cs.reverse.dropWhile isBlank).reverse

/-- The value after an equals sign, and the rest. -/
def value (cs : List Char) : Option (List Char × List Char) :=
  match cs with
  | '\'' :: rest => (quotedBody '\'' rest).map fun (v, r) => (unescape (escapes.take 2) v, r)
  | '"' :: rest => (quotedBody '"' rest).map fun (v, r) => (unescape escapes v, r)
  | _ =>
    let line := cs.takeWhile (· ≠ '\n')
    some (stripRight (uncommented line), cs.drop line.length)

/-- The name at the start of a line, if there is one, and the rest; none if the line is at fault. -/
def name (cs : List Char) : Option (Option (List Char) × List Char) :=
  match cs with
  | '#' :: _ => some (none, cs)
  | '\'' :: rest =>
    let key := rest.takeWhile (· ≠ '\'')
    if key.isEmpty || key.length = rest.length then none
    else some (some key, rest.drop (key.length + 1))
  | _ =>
    let key := cs.takeWhile fun c => c ≠ '=' && c ≠ '#' && ! isBlank c
    if key.isEmpty then none else some (some key, cs.drop key.length)

/-- Past the word that may stand before a name. -/
def pastExport (cs : List Char) : List Char :=
  let word := "export".toList
  let rest := cs.drop word.length
  if word.isPrefixOf cs && rest.head?.any isInlineBlank then rest.dropWhile isInlineBlank else cs

/-- Past a comment and the end of the line; none if something else stands there. -/
def lineEnd (cs : List Char) : Option (List Char) :=
  let rest := cs.dropWhile isInlineBlank
  match rest with
  | [] => some []
  | '\n' :: more => some more
  | '#' :: more => some ((more.dropWhile (· ≠ '\n')).drop 1)
  | _ => none

/-- What a line says. -/
inductive Line where
  | binding (key : List Char) (value : Option (List Char))
  | empty
  | fault

/-- The text after the present line. -/
def nextLine (cs : List Char) : List Char :=
  (cs.dropWhile (· ≠ '\n')).drop 1

/-- The first line of a text, after empty ones, and the rest. -/
def line (cs : List Char) : Line × List Char :=
  match cs.dropWhile isBlank with
  | [] => (.empty, [])
  | cs =>
    let cs := pastExport cs
    match name cs with
    | none => (.fault, nextLine cs)
    | some (key, rest) =>
      let rest := rest.dropWhile isInlineBlank
      let bound : Option (Option (List Char) × List Char) :=
        match rest with
        | '=' :: more => (value (more.dropWhile isInlineBlank)).map fun (v, r) => (some v, r)
        | _ => some (none, rest)
      match bound with
      | none => (.fault, nextLine (rest.drop 1 |>.dropWhile isInlineBlank))
      | some (v, rest) =>
        match lineEnd rest with
        | none => (.fault, nextLine rest)
        | some rest => (match key with | some k => .binding k v | none => .empty, rest)

/-- The lines of a text, each with the number of line feeds before it. -/
def linesFrom : Nat → Nat → List Char → List (Nat × Line)
  | 0, _, _ => []
  | _ + 1, _, [] => []
  | fuel + 1, row, cs =>
    let (l, rest) := line cs
    let passed := (cs.take (cs.length - rest.length)).count '\n'
    (row, l) :: linesFrom fuel (row + passed) rest

/-- The lines of a text. -/
def lines (cs : List Char) : List (Nat × Line) :=
  linesFrom (cs.length + 1) 0 cs

/-! ## Values -/

/-- A piece of a value. -/
inductive Atom where
  | text (cs : List Char)
  | reference (name : List Char) (default : List Char)

/-- The variable that a text starts with after a dollar sign and a brace, and the rest. -/
def variableAt (cs : List Char) : Option (Atom × List Char) :=
  let name := cs.takeWhile fun c => c ≠ '}' && c ≠ ':'
  match cs.drop name.length with
  | '}' :: rest => some (.reference name [], rest)
  | ':' :: '-' :: more =>
    let default := more.takeWhile (· ≠ '}')
    match more.drop default.length with
    | '}' :: rest => some (.reference name default, rest)
    | _ => none
  | _ => none

def atoms : Nat → List Char → List Atom
  | 0, _ => []
  | _ + 1, [] => []
  | fuel + 1, c :: cs =>
    let plain := Atom.text [c] :: atoms fuel cs
    match c, cs with
    | '$', '{' :: more =>
      match variableAt more with
      | some (v, rest) => v :: atoms fuel rest
      | none => plain
    | _, _ => plain

/-- The value of a variable: the environment counts before the file, and a variable without a value
is empty. -/
def lookup (env : Environment) (seen : List (Text × Option Text)) (name default : Text) : Text :=
  match env.find? (·.1 == name) with
  | some (_, v) => v
  | none =>
    match seen.find? (·.1 == name) with
    | some (_, v) => v.getD []
    | none => default

/-- A value with its variables put in. -/
def expand (env : Environment) (seen : List (Text × Option Text)) (cs : List Char) : Text :=
  (atoms (cs.length + 1) cs).flatMap fun
    | .text cs => Text.ofChars cs
    | .reference name default => lookup env seen (Text.ofChars name) (Text.ofChars default)

/-- The names that lines bind, the latest first and each once, with their values. -/
def bindings (env : Environment) (ls : List (Nat × Line)) : List (Text × Option Text) :=
  ls.foldl
    (fun seen l =>
      match l.2 with
      | .binding key v =>
        let key := Text.ofChars key
        (key, v.map (expand env seen)) :: seen.filter (·.1 != key)
      | _ => seen)
    []

/-- The environment with the variables of a text that are not set yet, and the numbers of the lines
that are at fault. -/
def extend (env : Environment) (source : List Char) : Environment × List Nat :=
  let ls := lines source
  let added := (bindings env ls).filterMap fun (key, v) =>
    if env.any (·.1 == key) then none else v.map fun v => (key, v)
  let faults := ls.filterMap fun (row, l) => if l matches .fault then some (row + 1) else none
  (env ++ added, faults)

/-- The names of the variables that the lines of a text bind or refer to. -/
def mentioned (source : List Char) : List Text :=
  (lines source).flatMap fun (_, l) =>
    match l with
    | .binding key v =>
      let value := v.getD []
      Text.ofChars key :: (atoms (value.length + 1) value).filterMap fun
        | .reference name _ => some (Text.ofChars name)
        | .text _ => none
    | _ => []

def fileName : Text := Text.ofString ".env"

/-- Why a variable cannot be set: no name is empty or holds an equals sign, and nothing holds the zero
character. -/
def refusal? (binding : Text × Text) : Option Raised :=
  let (name, value) := binding
  if name.contains 0 || value.contains 0 then
    some { kind := "ValueError", why := "embedded null byte" }
  else if name.isEmpty || name.contains 0x3D then
    some { kind := "ValueError", why := "illegal environment variable name" }
  else none

def readFault : Files.Fault → Raised
  | .missing path => { kind := "FileNotFoundError", why := Files.Fault.message (.missing path) }
  | .isDirectory path => { kind := "IsADirectoryError", why := Files.Fault.message (.isDirectory path) }
  | .notDirectory path =>
    { kind := "NotADirectoryError", why := Files.Fault.message (.notDirectory path) }
  | .refused path => { kind := "PermissionError", why := Files.Fault.message (.refused path) }

/-- The text of the file. -/
def source (tree : Files.Tree) : Except Raised (List Char) := do
  let bytes ← (tree.read fileName).mapError readFault
  let chars ← (Utf8.decodeStrict bytes).mapError fun f =>
    { kind := "UnicodeDecodeError", why := Text.ofString f.message }
  return Lines.normalize chars

/-- The environment with the variables of the file, if there is one, and a note about each line that
is at fault. -/
def load (tree : Files.Tree) (env : Environment) : Except Raised (Environment × List Text) :=
  if tree.isFile fileName then do
    let (longer, faults) := extend env (← source tree)
    if let some e := (longer.drop env.length).findSome? refusal? then throw e
    return (longer, faults.map fun row =>
      "python-dotenv could not parse statement starting at line " ++ Text.ofNat row)
  else .ok (env, [])

end LazyLint.Config.Variables
