import LazyLint.Diagnostic
import LazyLint.Report.Json

/-!
# The report for tools

A SARIF log with one run, which knows one rule and has one result for each diagnostic.
-/

namespace LazyLint.Report.Sarif

/-- The address of a file, in which slashes separate names. -/
def uri (file : Text) : Text :=
  file.map fun c => if c = 0x5C then 0x2F else c

def string (s : String) : Json := .text (Text.ofString s)

def result (d : Diagnostic) : Json :=
  .object
    [("ruleId", .text d.rule),
     ("level", string d.severity.name),
     ("message", .object [("text", .text d.message)]),
     ("locations", .list
       [.object [("physicalLocation", .object
         [("artifactLocation", .object [("uri", .text (uri d.file))])])]])]

/-- The rule that the tool knows. -/
def rule : Json :=
  .object
    [("id", string ruleName),
     ("shortDescription", .object
       [("text", string "Heavy dependencies should be loaded lazily, not at module top level.")])]

def log (ds : List Diagnostic) : Json :=
  .object
    [("$schema", string "https://json.schemastore.org/sarif-2.1.0.json"),
     ("version", string "2.1.0"),
     ("runs", .list
       [.object
         [("tool", .object
           [("driver", .object [("name", string "dusty"), ("rules", .list [rule])])]),
          ("results", .list (ds.map result))]])]

end LazyLint.Report.Sarif
