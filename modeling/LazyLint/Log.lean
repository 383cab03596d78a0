import LazyLint.Value

/-!
# Log records

What the program reports about its own running, apart from its results.
-/

namespace LazyLint.Log

inductive Level where
  | debug
  | info
  | warning
  | error
  deriving Repr, DecidableEq

def Level.name : Level → String
  | .debug => "DEBUG"
  | .info => "INFO"
  | .warning => "WARNING"
  | .error => "ERROR"

/-- The rank of a level, on the scale on which thresholds are given. -/
def Level.rank : Level → Nat
  | .debug => 10
  | .info => 20
  | .warning => 30
  | .error => 40

structure Record where
  level : Level
  message : Text
  /-- Why the message cannot be written, if it shows a value that cannot. -/
  trouble : Option Value.Trouble := none

def debug (message : Text) : Record := { level := .debug, message }
def info (message : Text) : Record := { level := .info, message }
def warning (message : Text) : Record := { level := .warning, message }
def error (message : Text) : Record := { level := .error, message }

end LazyLint.Log
