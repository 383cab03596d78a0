import LazyLint.Text.Quoted

/-!
# File trees

The files that a run can see are a value: a tree of directories, files and symbolic links, and the
directory in which the run takes place. Paths are looked up in it the way an operating system does:
a link is followed wherever it stands, `..` leaves the directory that was really reached, and a chain
of links may have forty of them.
-/

namespace LazyLint.Files

/-- What a name in a directory stands for. -/
inductive Entry where
  | file (bytes : List UInt8)
  | directory (entries : List (Text × Entry))
  | link (target : Text)

/-- The names of a directory. -/
abbrev Directory := List (Text × Entry)

/-- The files that a run can see. -/
structure Tree where
  /-- The directory at the top. -/
  top : Directory := []
  /-- The names that lead from the top to the directory in which the run takes place. -/
  home : List Text := []
  /-- Paths of files that may not be read. -/
  refused : List Text := []
  /-- The names that lead from the top to each directory that may not be listed. -/
  closed : List (List Text) := []

def slash : CodePoint := 0x2F
def here : Text := Text.ofString "."
def above : Text := Text.ofString ".."

/-- The parts of a path between slashes. -/
def parts (path : Text) : List Text :=
  Text.splitAt slash path

def isAbsolute (path : Text) : Bool :=
  path.head? = some slash

/-- A name below a path. -/
def below (path name : Text) : Text :=
  if path.isEmpty || path.getLast? = some slash then path ++ name else path ++ [slash] ++ name

/-- What a name of a directory stands for. -/
def Directory.get? (d : Directory) (name : Text) : Option Entry :=
  (d.find? fun e => e.1 == name).map (·.2)

/-! ## Looking up a path -/

/-- A directory that was reached: its names, and the names of the directories on the way to it, the
nearest first, each with the name by which it was left. -/
structure Place where
  dir : Directory
  around : List (Text × Directory)

/-- The names that lead from the top to a place. -/
def Place.path (p : Place) : List Text :=
  (p.around.map (·.1)).reverse

/-- Where a path leads. -/
inductive Found where
  | directory (place : Place)
  /-- A file under a name of a directory. -/
  | file (place : Place) (name : Text) (bytes : List UInt8)
  /-- A name that a directory does not have, at the end of the path. -/
  | vacant (place : Place) (name : Text)
  /-- The same before a slash, which asks for a directory. -/
  | awaited
  /-- A directory on the way does not exist, or there are too many links. -/
  | missing
  /-- Something on the way is a file. -/
  | blocked

/-- Follow the parts of a path from a place on; links are followed by what `follow` says. -/
def followParts (top : Directory) (follow : Place → List Text → Found) : Place → List Text → Found
  | p, [] => .directory p
  | p, part :: rest =>
    if part.isEmpty || part = here then followParts top follow p rest
    else if part = above then
      match p.around with
      | [] => followParts top follow p rest
      | (_, dir) :: around => followParts top follow { dir, around } rest
    else
      match p.dir.get? part with
      | none =>
        if rest.isEmpty then .vacant p part
        else if rest.all List.isEmpty then .awaited
        else .missing
      | some (.file bytes) => if rest.isEmpty then .file p part bytes else .blocked
      | some (.directory dir) =>
        followParts top follow { dir, around := (part, p.dir) :: p.around } rest
      | some (.link target) =>
        follow (if isAbsolute target then { dir := top, around := [] } else p) (parts target ++ rest)

/-- Follow the parts of a path, with at most so many links. -/
def followWithin (top : Directory) : Nat → Place → List Text → Found
  | 0 => fun _ _ => .missing
  | links + 1 => followParts top (followWithin top links)

/-- The number of links that a path may lead through. -/
def linkLimit : Nat := 40

/-- Go from the top down along names of directories. -/
def descend (p : Place) : List Text → Place
  | [] => p
  | name :: names =>
    match p.dir.get? name with
    | some (.directory dir) => descend { dir, around := (name, p.dir) :: p.around } names
    | _ => p

namespace Tree

/-- Where a path leads. The empty path leads nowhere. -/
def find (t : Tree) (path : Text) : Found :=
  if path.isEmpty then .missing
  else
    let start : Place := { dir := t.top, around := [] }
    let start := if isAbsolute path then start else descend start t.home
    followWithin t.top (linkLimit + 1) start (parts path)

def file? (t : Tree) (path : Text) : Option (List UInt8) :=
  match t.find path with
  | .file _ _ bytes => some bytes
  | _ => none

def directory? (t : Tree) (path : Text) : Option Directory :=
  match t.find path with
  | .directory p => some p.dir
  | _ => none

def isFile (t : Tree) (path : Text) : Bool := (t.file? path).isSome
def isDirectory (t : Tree) (path : Text) : Bool := (t.directory? path).isSome

/-- The path leads to a directory that may be listed. -/
def isOpen (t : Tree) (path : Text) : Bool :=
  match t.find path with
  | .directory p => ! t.closed.contains p.path
  | _ => false

end Tree

/-! ## Building and writing -/

mutual

/-- The entry with something put at a path below it. -/
def Entry.put (new : Entry) : List Text → Entry → Entry
  | [], _ => new
  | name :: names, .directory es => .directory (putAmong new name names es)
  | name :: names, _ => .directory [(name, Entry.put new names (.directory []))]
  termination_by names e => (names.length, sizeOf e)

/-- The names of a directory with something put at a path below it; directories on the way that are
not there are made. -/
def putAmong (new : Entry) (name : Text) (names : List Text) : Directory → Directory
  | [] => [(name, Entry.put new names (.directory []))]
  | (n, e) :: es =>
    if n = name then (n, Entry.put new names e) :: es else (n, e) :: putAmong new name names es
  termination_by es => (names.length + 1, sizeOf es)

end

/-- The directory with something put at a path below it. -/
def Directory.put (d : Directory) (names : List Text) (e : Entry) : Directory :=
  match names with
  | [] => d
  | name :: names => putAmong e name names d

/-- Why a file cannot be written or read. -/
inductive Fault where
  | missing (path : Text)
  | isDirectory (path : Text)
  | notDirectory (path : Text)
  | refused (path : Text)

def Fault.message : Fault → Text
  | .missing path => "[Errno 2] No such file or directory: " ++ path.quoted
  | .isDirectory path => "[Errno 21] Is a directory: " ++ path.quoted
  | .notDirectory path => "[Errno 20] Not a directory: " ++ path.quoted
  | .refused path => "[Errno 13] Permission denied: " ++ path.quoted

namespace Tree

def read (t : Tree) (path : Text) : Except Fault (List UInt8) :=
  if t.refused.contains path then .error (.refused path)
  else
    match t.find path with
    | .file _ _ bytes => .ok bytes
    | .directory _ => .error (.isDirectory path)
    | .blocked => .error (.notDirectory path)
    | .vacant .. | .awaited | .missing => .error (.missing path)

def write (t : Tree) (path : Text) (bytes : List UInt8) : Except Fault Tree :=
  match t.find path with
  | .file p name _ => .ok { t with top := t.top.put (p.path ++ [name]) (.file bytes) }
  | .vacant p name => .ok { t with top := t.top.put (p.path ++ [name]) (.file bytes) }
  | .directory _ | .awaited => .error (.isDirectory path)
  | .blocked => .error (.notDirectory path)
  | .missing => .error (.missing path)

end Tree

/-! ## Differences -/

mutual

/-- The files of an entry, with their paths below it. -/
def Entry.files (path : Text) : Entry → List (Text × List UInt8)
  | .file bytes => [(path, bytes)]
  | .directory es => filesAmong path es
  | .link _ => []

/-- The files of a directory, with their paths. -/
def filesAmong (path : Text) : Directory → List (Text × List UInt8)
  | [] => []
  | (name, e) :: es => Entry.files (below path name) e ++ filesAmong path es

end

/-- The files below the directory of the run. -/
def Tree.files (t : Tree) : List (Text × List UInt8) :=
  filesAmong [] (descend { dir := t.top, around := [] } t.home).dir

/-- The files of a tree that are new or have other contents than in an earlier one. -/
def Tree.changedSince (t before : Tree) : List (Text × List UInt8) :=
  let old := before.files
  t.files.filter fun f => ! old.contains f

end LazyLint.Files
