import LazyLint.Config
import LazyLint.Files.Tree

/-!
# Configuration files

A configuration is read from a file, if one is named, and completed from the environment. What value the
bytes of a file stand for is up to a loader.
-/

namespace LazyLint

/-- What is raised by something that the program uses, under the name of its kind. -/
structure Raised where
  kind : String
  why : Text

namespace Config

open Files (Tree)

/-- Why the bytes of a file have no value. -/
inductive DocumentFault where
  /-- They are not a document. -/
  | malformed (why : Text)
  /-- They are not text, or a value of the document does not exist. -/
  | value (why : Text)
  /-- Anything else that the loader raises. -/
  | other (e : Raised)

/-- A loader gives the value of the document in the bytes of a file. -/
abbrev Loader := List UInt8 → Except DocumentFault Value

inductive LoadFault where
  /-- The path leads nowhere. -/
  | missing (path : Text)
  /-- The path leads to something that cannot be read as a file. -/
  | unreadable (f : Files.Fault)
  /-- The file with the path has no value. -/
  | document (path : Text) (f : DocumentFault)
  /-- The document, or the environment, does not give a configuration. -/
  | invalid (f : Fault)

def LoadFault.message (room : Nat) : LoadFault → Text
  | .missing path => "Configuration file not found: " ++ path
  | .unreadable f => f.message
  | .document path (.malformed why) => "Failed to load configuration from " ++ path ++ ": " ++ why
  | .document _ (.value why) => why
  | .document _ (.other e) => e.why
  | .invalid f => f.message room

/-- The value of the document in a file. -/
def readValue (documents : Loader) (tree : Tree) (path : Text) : Except LoadFault Value :=
  match tree.find path with
  | .file .. | .directory _ => do
    let bytes ← (tree.read path).mapError .unreadable
    (documents bytes).mapError (.document path)
  | _ => .error (.missing path)

/-- The note about a document that was read. -/
def loadedNote (room : Nat) (path : Text) (v : Value) : Log.Record :=
  { Log.debug ("Loaded configuration from " ++ path ++ ": " ++ v.plain) with
    trouble := v.trouble? room }

/-- The configuration of a document and the environment, and what is logged. -/
def complete (room : Nat) (v : Value) (env : Environment) :
    List Log.Record × Except LoadFault Config :=
  let (logs, c) := ofValue room v
  (logs, (c >>= fun c => c.withEnvironment env).mapError .invalid)

/-- Load a configuration from the file with a path, if there is a path and it is not empty, and from
the environment. -/
def load (documents : Loader) (room : Nat) (tree : Tree) (path : Option Text) (env : Environment) :
    List Log.Record × Except LoadFault Config :=
  match path.filter fun p => ! p.isEmpty with
  | none => complete room .null env
  | some path =>
    match readValue documents tree path with
    | .error f => ([], .error f)
    | .ok v =>
      let (logs, c) := complete room v env
      (loadedNote room path v :: logs, c)

end Config

end LazyLint
