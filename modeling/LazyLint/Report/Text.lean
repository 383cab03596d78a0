import LazyLint.Diagnostic

/-!
# The report for readers

Diagnostics are listed under their files, in the order in which the files first appear, with their
number at the end.
-/

namespace LazyLint.Report

/-- The report without a diagnostic. -/
def clean : String := "Dusty efficiency linter: No issues found."

def header : List Text :=
  ["", "Dusty Efficiency Linter Results:", "================================="].map Text.ofString

def line (d : Diagnostic) : Text :=
  "  " ++ Text.ofString d.severity.name ++ ": " ++ d.message ++ " [" ++ d.rule ++ "]"

/-- The files of diagnostics, in the order of their first appearance. -/
def filesOf (ds : List Diagnostic) : List Text :=
  Text.dedup (ds.map (·.file))

def block (ds : List Diagnostic) (file : Text) : List Text :=
  (file ++ ":") :: (ds.filter (·.file = file)).map line ++ [[]]

def lines (ds : List Diagnostic) : List Text :=
  header ++ (filesOf ds).flatMap (block ds) ++
    ["Found " ++ Text.ofNat ds.length ++ " efficiency issues."]

def text (ds : List Diagnostic) : Text :=
  if ds.isEmpty then clean else Text.join "\n" (lines ds)

end LazyLint.Report
