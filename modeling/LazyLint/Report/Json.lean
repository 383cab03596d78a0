import LazyLint.Text.Quoted

/-!
# JSON text

JSON values without numbers, and their text over several lines: two spaces for each level, members
and items on lines of their own, and all characters as they are but for quotes, backslashes and the
control characters below U+0020.
-/

namespace LazyLint

/-- A JSON value of texts. -/
inductive Json where
  | text (t : Text)
  | list (items : List Json)
  | object (members : List (String × Json))

namespace Json

def escaped (c : CodePoint) : Text :=
  if c = 0x22 then "\\\""
  else if c = 0x5C then "\\\\"
  else if c = 0x0A then "\\n"
  else if c = 0x0D then "\\r"
  else if c = 0x09 then "\\t"
  else if c = 0x08 then "\\b"
  else if c = 0x0C then "\\f"
  else if c.val < 0x20 then "\\u" ++ Text.hexDigits 4 c.val
  else [c]

def quoted (t : Text) : Text :=
  "\"" ++ t.flatMap escaped ++ "\""

def newline (level : Nat) : Text :=
  Text.ofChars ('\n' :: List.replicate (2 * level) ' ')

/-- The parts between two brackets, each on a line of its own. -/
def bracketed (left right : Char) (level : Nat) (parts : List Text) : Text :=
  if parts.isEmpty then Text.ofChars [left, right]
  else
    Text.ofChars [left] ++ newline (level + 1) ++ Text.join ("," ++ newline (level + 1)) parts ++
      newline level ++ Text.ofChars [right]

mutual

/-- The text of a value at a level. -/
def renderAt (level : Nat) : Json → Text
  | .text t => quoted t
  | .list items => bracketed '[' ']' level (renderItems (level + 1) items)
  | .object members => bracketed '{' '}' level (renderMembers (level + 1) members)

def renderItems (level : Nat) : List Json → List Text
  | [] => []
  | v :: vs => renderAt level v :: renderItems level vs

def renderMembers (level : Nat) : List (String × Json) → List Text
  | [] => []
  | (k, v) :: ms => (quoted k ++ ": " ++ renderAt level v) :: renderMembers level ms

end

def render (v : Json) : Text :=
  renderAt 0 v

end Json

end LazyLint
