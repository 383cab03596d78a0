import LazyLint.Diagnostic
import LazyLint.Import
import LazyLint.Parse

/-!
# The linter

A linter applies the rule to one source after another and keeps what it found: the diagnostics, and
the files that it could not look into.
-/

namespace LazyLint

structure ParseFailure where
  file : Text
  message : Text
  deriving DecidableEq

structure Linter where
  config : Config := {}
  diagnostics : List Diagnostic := []
  failures : List ParseFailure := []

namespace Linter

/-- What stops the linter in a file. -/
inductive Fault where
  /-- A string literal has no value. -/
  | escape (f : Escape.Fault)
  /-- The tree of the file is not one that can be walked. -/
  | walk (h : Ast.Halt Ast.Fault)

def Fault.message : Fault → Text
  | .escape f => Text.ofString f.message
  | .walk (.tree f) | .walk (.visitor f) => f.message
  | .walk .imbalance => Text.ofString Ast.Scope.imbalanceMessage

/-- The linter with one more file that it could not look into. -/
def fail (l : Linter) (file message : Text) : Linter :=
  { l with failures := l.failures ++ [{ file, message }] }

/-- Why a deep tree is not looked into. -/
def tooDeep : String := "Syntax tree is nested too deeply to analyze"

/-- What linting one source leaves: the linter, what was logged, and the diagnostics of this source
unless a fault stopped it. -/
structure Linted where
  linter : Linter
  logs : List Log.Record := []
  found : Except Fault (List Diagnostic) := .ok []

/-- Apply the rule to a parsed source, with room for so many levels of its tree. -/
def check (room : Nat) (l : Linter) (file : Text) (tree : Ast.Node) (logs : List Log.Record) :
    Linted :=
  match Import.classify room l.config.deps tree with
  | .ok c =>
    let found := Diagnostic.emit c.topLevel file l.config.severity
    { linter := { l with diagnostics := l.diagnostics ++ found }, logs, found := .ok found }
  | .error (.tree .tooDeep) =>
    let note := Log.warning ("Unable to analyze " ++ file ++ ": " ++ Text.ofString tooDeep)
    { linter := l.fail file tooDeep, logs := logs ++ [note] }
  | .error h => { linter := l, logs, found := .error (.walk h) }

/-- Apply the rule to a source, unless it is switched off. -/
def lint (e : Engine) (l : Linter) (file source : Text) : Linted :=
  if ! l.config.enabled then { linter := l }
  else
    match Parse.parse e source with
    | (logs, .ok tree) => l.check e.room file tree logs
    | (logs, .error (.escape f)) => { linter := l, logs, found := .error (.escape f) }
    | (logs, .error (.refused _ why)) =>
      let message := Text.ofString why.message
      let note := Log.warning ("Unable to parse " ++ file ++ ": " ++ message)
      { linter := l.fail file message, logs := logs ++ [note] }

def reset (l : Linter) : Linter :=
  { config := l.config }

end Linter

end LazyLint
