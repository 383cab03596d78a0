import LazyLint.Text.Utf8
import LazyLint.Yaml.Scalar

/-!
# Tokens of a document

Indentation and the keys that no mark announces are turned into tokens here: a column further to the
right opens a block, one further to the left closes it, and a word that a colon follows on its line
was a key all along, so that its token is put in after the fact.

The list of tokens ends with the end of the text or with the fault that stopped the reading.
-/

namespace LazyLint.Yaml

/-- A line before a document that says something about it. -/
inductive Directive where
  | version (major minor : Nat)
  | handle (handle stem : Text)
  | other

inductive Token where
  | directive (d : Directive)
  | documentStart
  | documentEnd
  | streamEnd
  | blockSequenceStart
  | blockMappingStart
  | blockEnd
  | flowSequenceStart
  | flowSequenceEnd
  | flowMappingStart
  | flowMappingEnd
  | blockEntry
  | flowEntry
  | key
  | value
  | reference (name : List Char)
  | anchor (name : List Char)
  | tag (handle : Option Text) (suffix : Text)
  | scalar (text : Text) (isPlain : Bool)
  | fault (f : Fault)

/-! ## Tags, anchors and directives -/

/-- Characters of the address that a tag stands for. -/
def isAddressChar (c : Char) : Bool :=
  c.isDigit || ('a' ≤ c && c ≤ 'z') || ('A' ≤ c && c ≤ 'Z') || "-;/?:@&=+$,_.!~*'()[]%".contains c

/-- The bytes that a run of percent signs with two digits each spells. -/
def percentBytes : List Char → Option (List UInt8 × List Char)
  | '%' :: a :: b :: rest =>
    if isHexDigit a && isHexDigit b then
      (percentBytes rest).map fun (bs, rest) => ((hexValue [a, b]).toUInt8 :: bs, rest)
    else none
  | '%' :: _ => none
  | rest => some ([], rest)

/-- The address that a tag is made of, with percent signs decoded. -/
def addressValue : Nat → List Char → Option Text
  | 0, _ => none
  | _ + 1, [] => some []
  | fuel + 1, '%' :: rest =>
    match percentBytes ('%' :: rest) with
    | none => none
    | some (bytes, rest) =>
      match Utf8.decodeStrict bytes with
      | .ok cs => (addressValue fuel rest).map (Text.ofChars cs ++ ·)
      | .error _ => none
  | fuel + 1, c :: rest => (addressValue fuel rest).map (CodePoint.ofChar c :: ·)

def address : Scan Text := do
  let raw ← takeWhile isAddressChar
  if raw.isEmpty then malformed
  match addressValue (raw.length + 1) raw with
  | some t => return t
  | none => malformed

/-- A handle: an exclamation mark, or a name between two of them. -/
def tagHandle : Scan Text := do
  let c ← get
  match c.rest with
  | '!' :: rest =>
    if rest.head? = some ' ' then return Text.ofChars (← take 1)
    let n := (rest.takeWhile isNameChar).length
    if rest[n]? = some '!' then return Text.ofChars (← take (n + 2)) else malformed
  | _ => malformed

def tag : Scan Token := do
  let c ← get
  let token ←
    if c.peek 1 = some '<' then
      let _ ← take 2
      let suffix ← address
      if (← peek) ≠ some '>' then malformed
      let _ ← take 1
      pure (Token.tag none suffix)
    else if endsWord (c.peek 1) then
      let _ ← take 1
      pure (Token.tag none "!")
    else
      let word := (c.rest.drop 1).takeWhile fun ch => ch ≠ ' ' && ! isBreak ch
      let handle ←
        if word.contains '!' then tagHandle
        else do
          let _ ← take 1
          pure (Text.ofString "!")
      pure (Token.tag (some handle) (← address))
  if endsField (← peek) then return token else malformed

/-- The name of an anchor, after the mark that announces it. -/
def anchorName : Scan (List Char) := do
  let _ ← take 1
  let name ← takeWhile isNameChar
  if name.isEmpty then malformed
  let next ← peek
  if endsWord next || next.any ("?:,]\x7d%@`".contains ·) then return name else malformed

def versionNumber : Scan Nat := do
  let digits ← takeWhile Char.isDigit
  if digits.isEmpty then malformed
  return digits.foldl (fun n d => n * 10 + (d.toNat - 0x30)) 0

/-- A directive, after which nothing but a comment stands in its line. -/
def directive : Scan Directive := do
  let _ ← take 1
  let name ← takeWhile isNameChar
  if name.isEmpty || ! endsField (← peek) then malformed
  let d ←
    if String.ofList name = "YAML" then
      skipSpaces
      let major ← versionNumber
      if (← peek) ≠ some '.' then malformed
      let _ ← take 1
      let minor ← versionNumber
      if ! endsField (← peek) then malformed
      pure (Directive.version major minor)
    else if String.ofList name = "TAG" then
      skipSpaces
      let handle ← tagHandle
      if (← peek) ≠ some ' ' then malformed
      skipSpaces
      let stem ← address
      if ! endsField (← peek) then malformed
      pure (Directive.handle handle stem)
    else
      let _ ← takeWhile (! isBreak ·)
      pure Directive.other
  restOfLine
  return d

/-! ## The state between tokens -/

/-- A place where a key may have begun. -/
structure KeyPlace where
  /-- The number of tokens before it. -/
  count : Nat
  /-- It stands where a block goes on, so that nothing but a key can be meant. -/
  required : Bool
  index : Nat
  line : Nat
  column : Nat

/-- What is known between two tokens. -/
structure Reading where
  cursor : Cursor
  /-- The number of brackets around. -/
  flow : Nat := 0
  /-- The column of the innermost block, or minus one. -/
  indent : Int := -1
  /-- The columns of the blocks around it. -/
  indents : List Int := []
  /-- A key may begin here. -/
  keyAllowed : Bool := true
  /-- Where a key may have begun, by the number of brackets around. -/
  keys : List (Nat × KeyPlace) := []
  tokens : Array Token := #[]

namespace Reading

abbrev Step := Reading → Except Fault Reading

def emit (r : Reading) (t : Token) : Reading :=
  { r with tokens := r.tokens.push t }

def skip (r : Reading) (n : Nat) : Reading :=
  { r with cursor := r.cursor.skip n }

/-- The key that may have begun inside the present brackets. -/
def keyHere? (r : Reading) : Option KeyPlace :=
  (r.keys.find? fun k => k.1 = r.flow).map (·.2)

/-- No key has begun inside the present brackets; at fault if one is required. -/
def forgetKey : Step := fun r =>
  if (r.keyHere?).any (·.required) then throw .malformed
  else return { r with keys := r.keys.filter fun k => k.1 ≠ r.flow }

/-- A key may begin here, if it is allowed to. -/
def noteKey : Step := fun r => do
  if r.keyAllowed then
    let required := r.flow = 0 && r.indent = r.cursor.column
    let place : KeyPlace :=
      { count := r.tokens.size
        required
        index := r.cursor.index
        line := r.cursor.line
        column := r.cursor.column }
    let s ← r.forgetKey
    return { s with keys := (s.flow, place) :: s.keys }
  else return r

/-- A key ends in the line in which it begins and within 1024 characters. -/
def isStale (r : Reading) (k : KeyPlace) : Bool :=
  k.line ≠ r.cursor.line || k.index + 1024 < r.cursor.index

/-- Forget the keys that can no longer be ones; at fault if one of them is required. -/
def forgetStale : Step := fun r =>
  if r.keys.any fun k => r.isStale k.2 && k.2.required then throw .malformed
  else return { r with keys := r.keys.filter fun k => ! r.isStale k.2 }

/-- Close the blocks to the right of a column. -/
def unwind (r : Reading) (column : Int) : Reading :=
  if r.flow ≠ 0 then r
  else
    let rec go (indent : Int) (tokens : Array Token) : List Int → Reading
      | [] => { r with indent, indents := [], tokens }
      | i :: is =>
        if column < indent then go i (tokens.push .blockEnd) is
        else { r with indent, indents := i :: is, tokens }
    go r.indent r.tokens r.indents

/-- Open a block at a column if it is further to the right than the present one. -/
def openBlock (r : Reading) (column : Nat) (start : Token) (place : Nat) : Reading :=
  if r.indent < column then
    { r with
      indents := r.indent :: r.indents
      indent := column
      tokens := r.tokens.insertIdxIfInBounds place start }
  else r

/-! ## One token -/

/-- Past blanks, comments and line ends. -/
def pastTrivia : Nat → Reading → Reading
  | 0, r => r
  | fuel + 1, r =>
    let c := r.cursor
    let c := c.skip (c.rest.takeWhile (· = ' ')).length
    let c := if c.peek = some '#' then c.skip (c.rest.takeWhile (! isBreak ·)).length else c
    if c.peek.any isBreak then
      pastTrivia fuel { r with cursor := c.advance, keyAllowed := r.keyAllowed || r.flow = 0 }
    else { r with cursor := c }

/-- A token that ends all blocks. -/
def closing : Step := fun r => do
  let r ← (r.unwind (-1)).forgetKey
  return { r with keyAllowed := false }

/-- The token that a scan gives. -/
def scanned (r : Reading) (s : Scan Token) : Except Fault Reading := do
  let (t, cursor) ← s.run r.cursor
  return { r with cursor, tokens := r.tokens.push t }

def flowStart (t : Token) : Step := fun r => do
  let r ← r.noteKey
  return ({ r with flow := r.flow + 1, keyAllowed := true }.skip 1).emit t

def flowEnd (t : Token) : Step := fun r => do
  if r.flow = 0 then throw .malformed
  let r ← r.forgetKey
  return ({ r with flow := r.flow - 1, keyAllowed := false }.skip 1).emit t

def entry : Step := fun r => do
  let r ←
    if r.flow = 0 then
      if ! r.keyAllowed then throw .malformed
      pure (r.openBlock r.cursor.column .blockSequenceStart r.tokens.size)
    else pure r
  let r ← { r with keyAllowed := true }.forgetKey
  return (r.skip 1).emit .blockEntry

def explicitKey : Step := fun r => do
  let r ←
    if r.flow = 0 then
      if ! r.keyAllowed then throw .malformed
      pure (r.openBlock r.cursor.column .blockMappingStart r.tokens.size)
    else pure r
  let r ← { r with keyAllowed := r.flow = 0 }.forgetKey
  return (r.skip 1).emit .key

/-- A colon that separates a key from its value. The key, if it has begun without a mark, gets its
token now. -/
def valueMark : Step := fun r => do
  let r ←
    match r.keyHere? with
    | some k =>
      let r :=
        { r with
          keys := r.keys.filter fun e => e.1 ≠ r.flow
          tokens := r.tokens.insertIdxIfInBounds k.count .key
          keyAllowed := false }
      pure (if r.flow = 0 then r.openBlock k.column .blockMappingStart k.count else r)
    | none =>
      let r ←
        if r.flow = 0 then
          if ! r.keyAllowed then throw .malformed
          pure (r.openBlock r.cursor.column .blockMappingStart r.tokens.size)
        else pure r
      { r with keyAllowed := r.flow = 0 }.forgetKey
  return (r.skip 1).emit .value

/-- A token that may be a key or the beginning of one. -/
def keyed (s : Scan Token) : Step := fun r => do
  let r ← r.noteKey
  { r with keyAllowed := false }.scanned s

def block (isFolded : Bool) : Step := fun r => do
  let r ← { r with keyAllowed := true }.forgetKey
  r.scanned do return .scalar (← blockScalar isFolded r.indent) false

def plain : Step := fun r => do
  let r ← r.noteKey
  let ((text, ended), cursor) ← (plainScalar (r.flow ≠ 0) (r.indent + 1)).run r.cursor
  return { r with cursor, keyAllowed := ended, tokens := r.tokens.push (.scalar text true) }

/-- A plain scalar can start here. -/
def atPlain (r : Reading) (ch : Char) : Bool :=
  let c := r.cursor
  ! (isSpaceOrTab ch || isBreak ch || "-?:,[]\x7b\x7d#&*!|>'\"%@`".contains ch) ||
    (! endsWord (c.peek 1) && (ch = '-' || (r.flow = 0 && (ch = '?' || ch = ':'))))

/-- The next token, which starts with a character. -/
def token (ch : Char) : Step := fun r =>
  let c := r.cursor
  let inFlow := r.flow ≠ 0
  -- directives and the marks of documents stand at the start of a line only
  if ch = '%' && c.column = 0 then do
    (← r.closing).scanned do return .directive (← directive)
  else if c.column = 0 && c.atMark '-' then do return ((← r.closing).skip 3).emit .documentStart
  else if c.column = 0 && c.atMark '.' then do return ((← r.closing).skip 3).emit .documentEnd
  else if ch = '[' then r.flowStart .flowSequenceStart
  else if ch = '{' then r.flowStart .flowMappingStart
  else if ch = ']' then r.flowEnd .flowSequenceEnd
  else if ch = '}' then r.flowEnd .flowMappingEnd
  else if ch = ',' then do
    let r ← { r with keyAllowed := true }.forgetKey
    return (r.skip 1).emit .flowEntry
  else if ch = '-' && endsWord (c.peek 1) then r.entry
  else if ch = '?' && (inFlow || endsWord (c.peek 1)) then r.explicitKey
  else if ch = ':' && (inFlow || endsWord (c.peek 1)) then r.valueMark
  else if ch = '*' then r.keyed do return .reference (← anchorName)
  else if ch = '&' then r.keyed do return .anchor (← anchorName)
  else if ch = '!' then r.keyed tag
  else if ch = '|' && ! inFlow then r.block false
  else if ch = '>' && ! inFlow then r.block true
  else if ch = '\'' || ch = '"' then r.keyed do return .scalar (← quotedScalar ch) false
  else if r.atPlain ch then r.plain
  else throw .malformed

/-- Past the next token, and whether it was not the last one. -/
def next (r : Reading) : Except Fault (Reading × Bool) := do
  let r ← (r.pastTrivia (r.cursor.rest.length + 1)).forgetStale
  let r := r.unwind r.cursor.column
  match r.cursor.peek with
  | none => return ((← r.closing).emit .streamEnd, false)
  | some ch => return (← token ch r, true)

/-- The tokens from here on, of which there are at most so many. -/
def finish : Nat → Reading → Array Token
  | 0, r => r.tokens.push (.fault .malformed)
  | fuel + 1, r =>
    match r.next with
    | .ok (r, true) => finish fuel r
    | .ok (r, false) => r.tokens
    | .error f => r.tokens.push (.fault f)

end Reading

/-- The tokens of a text. A byte order mark at its beginning does not count. -/
def tokens (source : List Char) : List Token :=
  if ! source.all isAllowed then [.fault .malformed]
  else
    let c : Cursor := { rest := source }
    let start := if c.peek = some (Char.ofNat 0xFEFF) then c.advance else c
    (Reading.finish (source.length + 1) { cursor := start }).toList

end LazyLint.Yaml
