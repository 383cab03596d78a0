import LazyLint.Engine
import LazyLint.Script.Source

/-!
# The engine of the program

The parser of scripts that comes with the library, and the depth that the program goes to.
-/

namespace LazyLint

def Engine.builtin : Engine where
  read := Script.read
  room := 980

end LazyLint
