import LazyLint.Yaml.Fault

/-!
# Places in a document

A cursor is a place in the text of a document, whose line ends are line feeds or one of the rarer
breaks. Columns decide about structure, so they are counted; a byte order mark takes no column.
-/

namespace LazyLint.Yaml

/-- A place in the text of a document. -/
structure Cursor where
  /-- The characters from here on. -/
  rest : List Char
  /-- The number of characters before. -/
  index : Nat := 0
  line : Nat := 0
  column : Nat := 0

/-- A step over a text, which may be at fault. -/
abbrev Scan := StateT Cursor (Except Fault)

/-! ## Characters -/

def isBreak (c : Char) : Bool :=
  c = '\n' || c.toNat = 0x85 || c.toNat = 0x2028 || c.toNat = 0x2029

/-- The break that stands in the value of a scalar for a break of the text. -/
def breakValue (c : Char) : Char :=
  if c.toNat = 0x85 then '\n' else c

def isSpaceOrTab (c : Char) : Bool :=
  c = ' ' || c = '\t'

/-- The end of the text or of a line. -/
def endsLine (c : Option Char) : Bool :=
  c.all isBreak

/-- The end of the text or of a line, or a space. -/
def endsField (c : Option Char) : Bool :=
  c.all fun c => c = ' ' || isBreak c

/-- The end of the text or of a line, a space or a tab. -/
def endsWord (c : Option Char) : Bool :=
  c.all fun c => isSpaceOrTab c || isBreak c

/-- Characters that names of anchors and directives are made of. -/
def isNameChar (c : Char) : Bool :=
  c.isDigit || ('a' ≤ c && c ≤ 'z') || ('A' ≤ c && c ≤ 'Z') || c = '-' || c = '_'

def isHexDigit (c : Char) : Bool :=
  c.isDigit || ('a' ≤ c && c ≤ 'f') || ('A' ≤ c && c ≤ 'F')

/-- Characters that a document may hold. -/
def isAllowed (c : Char) : Bool :=
  let n := c.toNat
  n = 9 || n = 10 || n = 13 || (0x20 ≤ n && n ≤ 0x7E) || n = 0x85 || (0xA0 ≤ n && n ≤ 0xFFFD) ||
    0x10000 ≤ n

/-! ## Moving -/

namespace Cursor

/-- The character some places on, if there is one. -/
def peek (c : Cursor) (k : Nat := 0) : Option Char :=
  c.rest[k]?

def advance (c : Cursor) : Cursor :=
  match c.rest with
  | [] => c
  | ch :: rest =>
    if isBreak ch then { rest, index := c.index + 1, line := c.line + 1, column := 0 }
    else
      { rest
        index := c.index + 1
        line := c.line
        column := if ch.toNat = 0xFEFF then c.column else c.column + 1 }

def skip : Nat → Cursor → Cursor
  | 0, c => c
  | n + 1, c => skip n c.advance

/-- Three characters of a kind and the end of a word: the marks between documents. -/
def atMark (c : Cursor) (m : Char) : Bool :=
  c.rest.take 3 == [m, m, m] && endsWord (c.peek 3)

/-- A mark between documents is here. -/
def atSeparator (c : Cursor) : Bool :=
  c.atMark '-' || c.atMark '.'

end Cursor

def malformed {α : Type} : Scan α :=
  throw .malformed

def peek : Scan (Option Char) :=
  return (← get).peek

/-- Past some characters, which are given. -/
def take (n : Nat) : Scan (List Char) := do
  let c ← get
  set (c.skip n)
  return c.rest.take n

/-- Past the characters of a class, which are given. -/
def takeWhile (p : Char → Bool) : Scan (List Char) := do
  take (((← get).rest.takeWhile p).length)

def skipSpaces : Scan Unit := do
  let _ ← takeWhile (· = ' ')

/-- Past a comment, if one is here. -/
def skipComment : Scan Unit := do
  if (← peek) = some '#' then
    let _ ← takeWhile (! isBreak ·)

/-- Past a line end, if one is here: what stands for it in a scalar. -/
def lineBreak : Scan (Option Char) := do
  match ← peek with
  | some ch =>
    if isBreak ch then
      let _ ← take 1
      return some (breakValue ch)
    else return none
  | none => return none

/-- Past the rest of a line that may hold nothing but a comment. -/
def restOfLine : Scan Unit := do
  skipSpaces
  skipComment
  if endsLine (← peek) then
    let _ ← lineBreak
  else malformed

end LazyLint.Yaml
