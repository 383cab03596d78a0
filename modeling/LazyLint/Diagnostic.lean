import LazyLint.Config

/-!
# Diagnostics

What the rule has to say about a file: one diagnostic for every heavy dependency that is loaded at
the top level.
-/

namespace LazyLint

structure Diagnostic where
  file : Text
  rule : Text
  message : Text
  severity : Severity := .warning
  deriving DecidableEq

namespace Diagnostic

def advice (specifier : Text) : Text :=
  "Heavy dependency '" ++ specifier ++
    ("' should be lazily loaded to improve startup performance. " ++
      "Consider using dynamic import() or require() inside functions." : String)

/-- A diagnostic for each specifier, in their order. -/
def emit (specifiers : List Text) (file : Text) (severity : Severity) : List Diagnostic :=
  specifiers.map fun s =>
    { file, rule := Text.ofString ruleName, message := advice s, severity }

end Diagnostic

end LazyLint
