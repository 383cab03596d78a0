import LazyLint.Calendar
import LazyLint.Text.Quoted

/-!
# What can be wrong with a document
-/

namespace LazyLint.Yaml

/-- Why a text has no value. -/
inductive Fault where
  /-- It is not a document of the format. -/
  | malformed
  /-- An escape spells a number that is no code point. -/
  | codePoint (n : Nat)
  /-- A scalar marked as an integer is none in its base. -/
  | integer (base : Nat) (text : Text)
  /-- An integer has more digits than are read. -/
  | longInteger (digits : Nat)
  /-- A scalar marked as a number is none. -/
  | float (text : Text)
  /-- A scalar marked as a number is empty. -/
  | noNumber
  /-- A number in base sixty has too many parts. -/
  | tooLarge
  /-- A scalar marked as a truth value is none. -/
  | truth (text : Text)
  /-- A scalar marked as a date is none. -/
  | timestamp
  /-- A date that does not exist. -/
  | calendar (f : Calendar.Fault)

/-- The wording of a fault. For a malformed document it is empty. -/
def Fault.message : Fault → Text
  | .malformed => []
  | .codePoint n =>
    if n < 0x80000000 then "chr() arg not in range(0x110000)"
    else "Python int too large to convert to C int"
  | .integer base text =>
    Text.ofString ("invalid literal for int() with base " ++ Nat.repr base ++ ": ") ++
      text.quoted.take 200
  | .longInteger digits =>
    Text.ofString ("Exceeds the limit (4300 digits) for integer string conversion: value has " ++
      Nat.repr digits ++ " digits; use sys.set_int_max_str_digits() to increase the limit")
  | .float text => "could not convert string to float: " ++ text.quoted
  | .noNumber => "string index out of range"
  | .tooLarge => "int too large to convert to float"
  | .truth text => text.quoted
  | .timestamp => "'NoneType' object has no attribute 'groupdict'"
  | .calendar f => Text.ofString f.message

end LazyLint.Yaml
