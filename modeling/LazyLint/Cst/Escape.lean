import LazyLint.Text.Number

/-!
# Escapes in string literals

An escape spells a code point by number, a control character by letter, nothing at all before a
line end, and otherwise the character after the backslash. Numbers are read as leniently as
`Text.int?` does, and an escape whose number is no code point stands for itself.
-/

namespace LazyLint.Escape

inductive Fault where
  /-- There is nothing after the backslash. -/
  | empty
  /-- The number is beyond what a machine integer holds. -/
  | overflow
  /-- The octal number is no code point. -/
  | range
  deriving Repr, DecidableEq

def Fault.message : Fault → String
  | .empty => "string index out of range"
  | .overflow => "Python int too large to convert to C int"
  | .range => "chr() arg not in range(0x110000)"

/-- The code point of a number: none if there is no such code point, a fault if the number exceeds
thirty-two bits. -/
def codePoint? (n : Int) : Except Fault (Option CodePoint) :=
  if n < -0x80000000 || 0x7FFFFFFF < n then .error .overflow
  else if h : 0 ≤ n ∧ n < 0x110000 then .ok (some ⟨n.toNat, by omega⟩)
  else .ok none

/-- The value of an escape that gives its number in base sixteen; `raw` stands if that is none. -/
def hexadecimal (raw number : Text) : Except Fault Text :=
  match number.int? 16 with
  | none => .ok raw
  | some n => do
    match ← codePoint? n with
    | some c => .ok [c]
    | none => .ok raw

/-- The line ends that a backslash hides. -/
def isLineEnd (c : CodePoint) : Bool :=
  c = 0x0D || c = 0x0A || c = 0x2028 || c = 0x2029

def isOctalDigit (c : CodePoint) : Bool :=
  0x30 ≤ c.val && c.val ≤ 0x37

def octalValue (digits : Text) : Nat :=
  digits.foldl (fun n c => n * 8 + (c.val - 0x30)) 0

/-- The control character that a letter stands for. -/
def control? (c : CodePoint) : Option CodePoint :=
  if c = 0x62 then some 0x08
  else if c = 0x66 then some 0x0C
  else if c = 0x6E then some 0x0A
  else if c = 0x72 then some 0x0D
  else if c = 0x74 then some 0x09
  else if c = 0x76 then some 0x0B
  else none

/-- The value of an escape that gives no number in base sixteen. -/
def simple (body : Text) : Except Fault Text :=
  match body with
  | [] => .error .empty
  | c :: rest =>
    if isLineEnd c then .ok []
    else if body.all isOctalDigit then do
      match ← codePoint? (octalValue body) with
      | some v => .ok [v]
      | none => .error .range
    else
      match control? c, rest with
      | some v, [] => .ok [v]
      | _, _ => .ok body

/-- The value of an escape, given with its backslash. -/
def decode (raw : Text) : Except Fault Text :=
  match raw.drop 1 with
  | [] => .error .empty
  | c :: rest =>
    if c = 0x75 && rest.head? = some 0x7B then hexadecimal raw (rest.drop 1).dropLast
    else if (c = 0x78 || c = 0x75) && ! rest.isEmpty then hexadecimal raw rest
    else simple (c :: rest)

end LazyLint.Escape
