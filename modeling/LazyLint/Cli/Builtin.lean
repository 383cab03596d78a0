import LazyLint.Builtin
import LazyLint.Cli.Run
import LazyLint.Config.Variables
import LazyLint.Yaml.Document

/-!
# The setting of the program

The readers that come with the library. They stand in for those that a run may be given instead.
-/

namespace LazyLint

namespace Yaml

/-- A fault of a document as a loader raises it. The wording of a malformed document is left out. -/
def Fault.raised (f : Fault) : Config.DocumentFault :=
  match f with
  | .malformed => .malformed f.message
  | .integer .. | .longInteger _ | .float _ | .calendar _ => .value f.message
  | .codePoint n =>
    if n < 0x80000000 then .value f.message
    else .other { kind := "OverflowError", why := f.message }
  | .tooLarge => .other { kind := "OverflowError", why := f.message }
  | .noNumber => .other { kind := "IndexError", why := f.message }
  | .truth _ => .other { kind := "KeyError", why := f.message }
  | .timestamp => .other { kind := "AttributeError", why := f.message }

/-- The value of the document in the bytes of a file. -/
def loadBytes : Config.Loader := fun bytes => do
  let chars ← (Utf8.decodeStrict bytes).mapError fun f => .value (Text.ofString f.message)
  (load (Lines.normalize chars)).mapError Fault.raised

end Yaml

def Cli.Setting.builtin : Cli.Setting where
  toEngine := .builtin
  environment := Config.Variables.load
  documents := Yaml.loadBytes
  valueRoom := 980
  complaint := fun _ => "--- Logging error ---\n"

end LazyLint
