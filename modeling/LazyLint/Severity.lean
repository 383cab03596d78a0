import LazyLint.Text.Blank
import LazyLint.Text.Lowercase
import LazyLint.Value

/-!
# Severities

A severity is named by a value whose plain text, without the blanks around it and with its letters
made small, is the name of one.
-/

namespace LazyLint

/-- How serious the findings of the rule are. -/
inductive Severity where
  | warning
  | error
  deriving Repr, DecidableEq

namespace Severity

def name : Severity → String
  | .warning => "warning"
  | .error => "error"

/-- The severities, in the order in which messages list them. -/
def all : List Severity := [.warning, .error]

def ofName (t : Text) : Option Severity :=
  all.find? fun s => Text.ofString s.name == t

def ofValue (v : Value) : Option Severity :=
  ofName v.plain.strip.lowered

end Severity

end LazyLint
