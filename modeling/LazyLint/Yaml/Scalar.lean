import LazyLint.Yaml.Cursor

/-!
# Scalars

How scalars are written: plain, in quotes, or as a block of lines. Inside the first two a single line
end stands for a space and further ones for themselves.
-/

namespace LazyLint.Yaml

/-- The text that folded line ends stand for: the first one is a space if it is alone and nothing
before others, unless it is one of the rarer breaks, which stand for themselves. -/
def folded (first : Char) (others : List Char) : Text :=
  Text.ofChars
    ((if first ≠ '\n' then [first] else if others.isEmpty then [' '] else []) ++ others)

/-! ## Plain scalars -/

/-- The characters that end a plain scalar here: blanks, a colon before a blank and, inside brackets,
the marks of the flow style. -/
def plainLength (inFlow : Bool) : List Char → Nat
  | [] => 0
  | ch :: rest =>
    let stops :=
      isSpaceOrTab ch || isBreak ch ||
      (ch = ':' && (endsWord rest.head? || (inFlow && (rest.head?.any (",[]\x7b\x7d".contains ·))))) ||
      (inFlow && ",?[]\x7b\x7d".contains ch)
    if stops then 0 else plainLength inFlow rest + 1

/-- The line ends after the first one inside a plain scalar, up to a word or to a mark between
documents, which ends the scalar: there the result is none. -/
def plainBreaks : Nat → List Char → Scan (Option (List Char))
  | 0, _ => malformed
  | fuel + 1, acc => do
    match ← peek with
    | some ' ' =>
      let _ ← take 1
      plainBreaks fuel acc
    | _ =>
      match ← lineBreak with
      | none => return some acc.reverse
      | some b =>
        if (← get).atSeparator then return none
        else plainBreaks fuel (b :: acc)

/-- What stands between two words of a plain scalar, if it may go on, and whether a line ends
there. -/
def plainSpaces : Scan (Text × Bool) := do
  let spaces ← takeWhile (· = ' ')
  match ← lineBreak with
  | none => return (Text.ofChars spaces, false)
  | some first =>
    if (← get).atSeparator then return ([], true)
    match ← plainBreaks ((← get).rest.length + 1) [] with
    | none => return ([], true)
    | some others => return (folded first others, true)

/-- The words of a plain scalar after those read so far and the space between. -/
def plainWords (inFlow : Bool) (indent : Int) : Nat → Text → Text → Bool → Scan (Text × Bool)
  | 0, acc, _, ended => return (acc, ended)
  | fuel + 1, acc, spaces, ended => do
    let c ← get
    let n := plainLength inFlow c.rest
    if c.peek = some '#' || n = 0 then return (acc, ended)
    let word ← take n
    let acc := acc ++ spaces ++ Text.ofChars word
    let (spaces, ended) ← plainSpaces
    let c ← get
    if spaces.isEmpty || c.peek = some '#' || (! inFlow && c.column < indent) then
      return (acc, ended)
    else plainWords inFlow indent fuel acc spaces ended

/-- A plain scalar, and whether a line ended after it. -/
def plainScalar (inFlow : Bool) (indent : Int) : Scan (Text × Bool) := do
  plainWords inFlow indent ((← get).rest.length + 1) [] [] false

/-! ## Quoted scalars -/

/-- The characters that a single letter after a backslash stands for. -/
def escapes : List (Char × Nat) :=
  [('0', 0), ('a', 7), ('b', 8), ('t', 9), ('\t', 9), ('n', 10), ('v', 11), ('f', 12), ('r', 13),
   ('e', 0x1B), (' ', 0x20), ('"', 0x22), ('\\', 0x5C), ('/', 0x2F), ('N', 0x85), ('_', 0xA0),
   ('L', 0x2028), ('P', 0x2029)]

/-- The number of digits after a letter that announces a number. -/
def escapeDigits (c : Char) : Nat :=
  if c = 'x' then 2 else if c = 'u' then 4 else if c = 'U' then 8 else 0

def hexValue (ds : List Char) : Nat :=
  ds.foldl
    (fun n d =>
      n * 16 +
        (if d.isDigit then d.toNat - 0x30
        else if 'a' ≤ d then d.toNat - 0x57
        else d.toNat - 0x37))
    0

/-- Further line ends and the blanks between them, inside quotes. A mark between documents is at
fault there. -/
def quotedBreaks : Nat → List Char → Scan (List Char)
  | 0, _ => malformed
  | fuel + 1, acc => do
    if (← get).atSeparator then malformed
    let _ ← takeWhile isSpaceOrTab
    match ← lineBreak with
    | some b => quotedBreaks fuel (b :: acc)
    | none => return acc.reverse

/-- What an escape after a backslash stands for. -/
def escape : Scan Text := do
  match ← peek with
  | none => malformed
  | some ch =>
    match escapes.find? fun e => e.1 = ch with
    | some (_, n) =>
      let _ ← take 1
      return [Fin.ofNat 0x110000 n]
    | none =>
      match escapeDigits ch with
      | 0 =>
        match ← lineBreak with
        | some _ => return Text.ofChars (← quotedBreaks ((← get).rest.length + 1) [])
        | none => malformed
      | n =>
        let _ ← take 1
        let digits := (← get).rest.take n
        if digits.length < n || ! digits.all isHexDigit then malformed
        let _ ← take n
        let value := hexValue digits
        if h : value < 0x110000 then return [⟨value, h⟩] else throw (.codePoint value)

/-- The blanks and line ends here, inside quotes. -/
def quotedSpaces : Scan Text := do
  let spaces ← takeWhile isSpaceOrTab
  if (← peek).isNone then malformed
  match ← lineBreak with
  | some first => return folded first (← quotedBreaks ((← get).rest.length + 1) [])
  | none => return Text.ofChars spaces

/-- The value of a quoted scalar after what was read so far, up to its closing quote. -/
def quotedRest (quote : Char) : Nat → Text → Scan Text
  | 0, _ => malformed
  | fuel + 1, acc => do
    let c ← get
    match c.peek with
    | none => malformed
    | some ch =>
      if isSpaceOrTab ch || isBreak ch then quotedRest quote fuel (acc ++ (← quotedSpaces))
      else if ch = quote then
        if quote = '\'' && c.peek 1 = some '\'' then
          let _ ← take 2
          quotedRest quote fuel (acc ++ Text.ofChars ['\''])
        else
          let _ ← take 1
          return acc
      else if ch = '\\' && quote = '"' then
        let _ ← take 1
        quotedRest quote fuel (acc ++ (← escape))
      else
        let _ ← take 1
        quotedRest quote fuel (acc ++ Text.ofChars [ch])

def quotedScalar (quote : Char) : Scan Text := do
  let _ ← take 1
  quotedRest quote ((← get).rest.length + 1) []

/-! ## Block scalars -/

/-- What becomes of the line ends at the end of a block. -/
inductive Chomping where
  | clip
  | strip
  | keep
  deriving DecidableEq

/-- The sign of a chomping, if one is here. -/
def chompingSign : Scan (Option Chomping) := do
  match ← peek with
  | some '+' =>
    let _ ← take 1
    return some .keep
  | some '-' =>
    let _ ← take 1
    return some .strip
  | _ => return none

/-- The digit that gives the indentation, if one is here. -/
def indentDigit : Scan (Option Nat) := do
  match ← peek with
  | some d =>
    if d.isDigit then
      if d = '0' then malformed
      let _ ← take 1
      return some (d.toNat - 0x30)
    else return none
  | none => return none

/-- What stands after the mark of a block scalar, in either order. -/
def blockHeader : Scan (Chomping × Option Nat) := do
  let sign ← chompingSign
  let digit ← indentDigit
  let sign ← if sign.isNone && digit.isSome then chompingSign else pure sign
  if endsField (← peek) then return (sign.getD .clip, digit) else malformed

/-- Past spaces up to a column. -/
def skipIndent (indent : Nat) : Scan Unit := do
  let c ← get
  let n := min (indent - c.column) (c.rest.takeWhile (· = ' ')).length
  let _ ← take n

/-- The line ends before the next line that holds something, which starts at a column. -/
def blockBreaks (indent : Nat) : Nat → List Char → Scan (List Char)
  | 0, _ => malformed
  | fuel + 1, acc => do
    skipIndent indent
    match ← lineBreak with
    | some b => blockBreaks indent fuel (b :: acc)
    | none => return acc.reverse

/-- The line ends before the first line that holds something, and the furthest column of the spaces
between them. -/
def blockIndent : Nat → List Char → Nat → Scan (List Char × Nat)
  | 0, _, _ => malformed
  | fuel + 1, acc, furthest => do
    match ← peek with
    | some ' ' =>
      let _ ← take 1
      blockIndent fuel acc (max furthest (← get).column)
    | _ =>
      match ← lineBreak with
      | some b => blockIndent fuel (b :: acc) furthest
      | none => return (acc.reverse, furthest)

/-- The lines of a block: the text of all but the last line end, the last line end, and the line ends
after it. -/
def blockLines (isFolded : Bool) (indent : Nat) :
    Nat → Text → List Char → Scan (Text × List Char × List Char)
  | 0, _, _ => malformed
  | fuel + 1, acc, breaks => do
    let spaced := (← peek).any isSpaceOrTab
    let line ← takeWhile (! isBreak ·)
    let acc := acc ++ Text.ofChars (breaks ++ line)
    let last := (← lineBreak).toList
    let breaks ← blockBreaks indent ((← get).rest.length + 1) []
    let c ← get
    if c.column = indent && c.peek.isSome then
      let joint : List Char :=
        -- a line end folds between lines of which neither starts with a blank
        if isFolded && last == ['\n'] && ! spaced && ! c.peek.any isSpaceOrTab then
          if breaks.isEmpty then [' '] else []
        else last
      blockLines isFolded indent fuel (acc ++ Text.ofChars joint) breaks
    else return (acc, last, breaks)

/-- A scalar of lines that are indented further than the column around it. -/
def blockScalar (isFolded : Bool) (around : Int) : Scan Text := do
  let _ ← take 1
  let (chomping, digit) ← blockHeader
  restOfLine
  let least := max 1 (around + 1).toNat
  let fuel := (← get).rest.length + 1
  let (indent, breaks) ←
    match digit with
    | some d =>
      let indent := least + d - 1
      pure (indent, ← blockBreaks indent fuel [])
    | none =>
      let (breaks, furthest) ← blockIndent fuel [] 0
      pure (max least furthest, breaks)
  let c ← get
  let (text, last, breaks) ←
    if c.column = indent && c.peek.isSome then blockLines isFolded indent fuel [] breaks
    else pure ([], [], breaks)
  return text ++ Text.ofChars
    ((if chomping = .strip then [] else last) ++ (if chomping = .keep then breaks else []))

end LazyLint.Yaml
