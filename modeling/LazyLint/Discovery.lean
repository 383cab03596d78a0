import LazyLint.Files.Tree
import LazyLint.Log

/-!
# Finding script files

A target is a file or a directory. A directory stands for the script files in it and below it: its own
files by name, then its subdirectories by name. Hidden directories, `node_modules`, linked directories
and those that may not be listed are not entered; the target itself is entered whatever its name is.
-/

namespace LazyLint.Discovery

open Files (Entry Directory Tree)

def extensions : List Text :=
  [".js", ".mjs"].map Text.ofString

def isScript (name : Text) : Bool :=
  extensions.any (·.isSuffixOf name)

/-- Directories that are not entered, apart from hidden ones. -/
def skipped : List Text :=
  ["node_modules"].map Text.ofString

/-- Below a target, the directory with a name is entered. -/
def isEntered (name : Text) : Bool :=
  name.head? ≠ some 0x2E && ! skipped.contains name

/-- By the code points of names. -/
def byName {α : Type} (a b : Text × α) : Bool :=
  ! decide (b.1 < a.1)

/-- The script files of a directory itself. -/
def own (tree : Tree) (path : Text) (d : Directory) : List Text :=
  let named := (d.mergeSort byName).filter fun e => isScript e.1
  (named.map fun e => Files.below path e.1).filter tree.isFile

mutual

/-- The script files in an entry that is a directory with a path. -/
def scripts (tree : Tree) (path : Text) : Entry → List Text
  | .directory d => own tree path d ++ ((scriptsBelow tree path d).mergeSort byName).flatMap (·.2)
  | _ => []

/-- For each directory that is entered, its name and the script files in it. -/
def scriptsBelow (tree : Tree) (path : Text) : Directory → List (Text × List Text)
  | [] => []
  | (name, e) :: es =>
    if isEntered name && tree.isOpen (Files.below path name) then
      (name, scripts tree (Files.below path name) e) :: scriptsBelow tree path es
    else scriptsBelow tree path es

end

/-- The script files that a target stands for, and what is logged. -/
def find (tree : Tree) (target : Text) : List Log.Record × List Text :=
  if tree.isFile target then ([], if isScript target then [target] else [])
  else
    match tree.directory? target with
    | none => ([Log.warning ("Target does not exist: " ++ target)], [])
    | some d =>
      let found := if tree.isOpen target then scripts tree target (.directory d) else []
      ([Log.debug ("Found " ++ Text.ofNat found.length ++ " script files under " ++ target)], found)

/-- The script files that targets stand for, each once and in the order of its first appearance, and
what is logged. -/
def collect (tree : Tree) (targets : List Text) : List Log.Record × List Text :=
  let found := targets.map (find tree)
  (found.flatMap (·.1), Text.dedup (found.flatMap (·.2)))

end LazyLint.Discovery
