import LazyLint.Cli.Builtin

/-!
# The program

The outer layer of the command. A run is a function of the files it sees, so the files that the
arguments name are copied into a tree before it, and the report is written where the run has put it.
-/

namespace LazyLint.Program

open Files (Tree)

/-! ## Copying files -/

/-- The names that lead from the top to an absolute path. -/
def names (path : String) : List Text :=
  (Files.parts (Text.ofString path)).filter fun n => ! n.isEmpty

/-- A name below an absolute path. -/
def below (path name : String) : String :=
  if path.endsWith "/" then path ++ name else path ++ "/" ++ name

def parent (path : String) : String :=
  "/" ++ (Text.join "/" (names path).dropLast).toString

/-- The tree with a directory at an absolute path, unless one is there. -/
def withDirectory (t : Tree) (path : String) : Tree :=
  if t.isDirectory (Text.ofString path) then t
  else { t with top := t.top.put (names path) (.directory []) }

def withLink (t : Tree) (path target : String) : Tree :=
  { t with top := t.top.put (names path) (.link (Text.ofString target)) }

/-- Copy the file at an absolute path, which the run knows as `shown`. One that cannot be read is
there all the same. -/
def copyFile (t : Tree) (shown : Text) (path : String) : IO Tree := do
  match ← (IO.FS.readBinFile path).toBaseIO with
  | .ok bytes => return { t with top := t.top.put (names path) (.file bytes.toList) }
  | .error _ =>
    return { t with top := t.top.put (names path) (.file []), refused := shown :: t.refused }

/-- Copy the script files below the directory at an absolute path without links. One that cannot be
listed is there all the same. -/
partial def copyDirectory (t : Tree) (shown : Text) (path : String) : IO Tree := do
  let mut t := withDirectory t path
  let .ok entries ← (IO.FS.realPath path >>= fun p => p.readDir).toBaseIO
    | return { t with closed := names path :: t.closed }
  for e in entries do
    let name := Text.ofString e.fileName
    let child := below path e.fileName
    match ← (IO.FS.realPath child).toBaseIO with
    | .error _ => pure ()
    | .ok real =>
      if ← real.isDir then
        if real.toString == child && Discovery.isEntered name then
          t ← copyDirectory t (Files.below shown name) child
      else if Discovery.isScript name then
        t ← copyFile t (Files.below shown name) child
  return t

/-- Copy what the parts of a path lead to from a directory on, with the directories and links on the
way; the last of them, without links, is the second result. -/
def copyAlong (t : Tree) (shown : Text) (place : String) : List Text → IO (Tree × String)
  | [] => return (t, place)
  | part :: rest => do
    if part.isEmpty || part = Files.here then copyAlong t shown place rest
    else if part = Files.above then copyAlong t shown (parent place) rest
    else
      let child := below place part.toString
      match ← (IO.FS.realPath child).toBaseIO with
      | .error _ => return (t, child)
      | .ok real =>
        let target := real.toString
        let t := if target == child then t else withLink t child target
        if ← real.isDir then copyAlong (withDirectory t target) shown target rest
        else return (← copyFile t shown target, target)

/-- Copy what a path names and, if it is a directory and `whole` is set, the script files in it. -/
def copy (t : Tree) (home : String) (whole : Bool) (path : Text) : IO Tree := do
  if path.isEmpty then return t
  let start := if Files.isAbsolute path then "/" else home
  let (t, place) ← copyAlong t path start (Files.parts path)
  if whole && t.isDirectory path then copyDirectory t path place else return t

/-! ## Running -/

/-- The values of variables that are set. -/
def environment (wanted : List Text) : IO Config.Environment :=
  wanted.filterMapM fun v => do
    return (← IO.getEnv v.toString).map fun value => (v, Text.ofString value)

/-- The variables that a run may ask for, given the text of the file of variables. -/
def wantedVariables (source : List Char) : List Text :=
  Text.dedup
    ([Config.severityVariable, Config.dependenciesVariable, Config.pathVariable].map Text.ofString ++
      Config.Variables.mentioned source)

/-- The configuration file that the environment names, if it names one. -/
def configuredPath (t : Tree) (env : Config.Environment) : Option Text :=
  match Config.Variables.load t env with
  | .ok (env, _) => (env.find? (·.1 == Text.ofString Config.pathVariable)).map (·.2)
  | .error _ => none

/-- The tree that a run with options sees. -/
def visible (t : Tree) (home : String) (env : Config.Environment) (o : Cli.Options) : IO Tree := do
  let files := o.config.toList ++ (configuredPath t env).toList ++ o.output.toList
  let t ← files.foldlM (fun t p => copy t home false p) t
  o.targets.foldlM (fun t p => copy t home true p) t

/-- Write the report that a run has put into its tree, or what it has left of it. -/
def writeReport (o : Cli.Options) (t : Tree) : IO Unit := do
  if let some path := o.output then
    if let some bytes := t.file? path then
      IO.FS.writeBinFile path.toString (ByteArray.mk bytes.toArray)

def run (args : List Text) : IO UInt32 := do
  let home := (← IO.FS.realPath (← IO.currentDir)).toString
  let bare := withDirectory { home := names home } home
  let t ← copy bare home false Config.Variables.fileName
  let source := (Utf8.decodeStrict ((t.file? Config.Variables.fileName).getD [])).toOption.getD []
  let env ← environment (wantedVariables (Lines.normalize source))
  let options :=
    match Cli.request args with
    | .ok (.run o) => o
    | _ => {}
  let t ← visible t home env options
  match Cli.run .builtin t env args with
  | .error f =>
    if let .encode cut := f then writeReport options cut.tree
    IO.eprintln (f.message Cli.Setting.builtin.valueRoom).spelledOut.toString
    return 1
  | .ok outcome =>
    writeReport options outcome.tree
    IO.print outcome.out.toString
    IO.eprint outcome.err.toString
    return outcome.code.toUInt32

end LazyLint.Program

/-- Report the top-level imports of heavy dependencies in the files that the arguments name. -/
def main (args : List String) : IO UInt32 :=
  LazyLint.Program.run (args.map LazyLint.Text.ofString)
