import LazyLint.Cst.Node

/-!
# Reading source text

A cursor is a place in the source: the characters still to be read, the byte and row they start
at, and where the last token ended. A parser takes a cursor to a value and a later cursor, or to
the fault that stopped it; backtracking is keeping the earlier cursor.

Every loop of the reader runs on the count of characters left, so all of it is total.
-/

namespace LazyLint.Script

open Cst (Node Head)

/-- The place where the source cannot be read on. -/
structure Fault where
  offset : Nat
  row : Nat
  deriving Repr, Inhabited

def Fault.later (a b : Fault) : Fault :=
  if a.offset < b.offset then b else a

/-- A place in the source. -/
structure Cursor where
  /-- The characters still to be read. -/
  rest : List Char
  /-- How many they are. -/
  left : Nat
  /-- The byte they start at. -/
  offset : Nat := 0
  /-- The row they start in. -/
  row : Nat := 0
  /-- The byte after the last token. -/
  tokenEnd : Nat := 0
  /-- The row in which the last token ended. -/
  tokenRow : Nat := 0
  /-- An initialised shorthand property that only a pattern may hold, not yet claimed by one. -/
  cover : Option Fault := none
  /-- The byte of an `await` that is read as a name, see `Statement.braces`. -/
  awaitName : Option Nat := none
  /-- Whether a string that a line end breaks is read on to the next quote of its kind, with an error
  inside it. -/
  mending : Bool := false
  /-- The markup comments met so far, the latest first. -/
  comments : List Node := []
  deriving Inhabited

/-- A value with the cursor behind it, or the fault that stopped the parser. -/
inductive Outcome (α : Type) where
  | ok (value : α) (next : Cursor)
  | fail (fault : Fault)

def Parser (α : Type) := Cursor → Outcome α

namespace Parser

@[inline] protected def pure {α : Type} (a : α) : Parser α :=
  fun c => .ok a c

@[inline] protected def bind {α β : Type} (p : Parser α) (f : α → Parser β) : Parser β :=
  fun c =>
    match p c with
    | .ok a c => f a c
    | .fail e => .fail e

instance : Monad Parser where
  pure := Parser.pure
  bind := Parser.bind

@[inline] def here : Parser Cursor :=
  fun c => .ok c c

@[inline] def goto (c : Cursor) : Parser Unit :=
  fun _ => .ok () c

@[inline] def stop {α : Type} (e : Fault) : Parser α :=
  fun _ => .fail e

/-- The second parser is tried at the same place when the first one stops; if both do, the fault
further on counts. -/
@[inline] def orElse {α : Type} (p q : Parser α) : Parser α :=
  fun c =>
    match p c with
    | .ok a c => .ok a c
    | .fail e =>
      match q c with
      | .ok a c => .ok a c
      | .fail e' => .fail (e.later e')

end Parser

/-! ## Moving on -/

namespace Cursor

def advance (c : Cursor) : Cursor :=
  match c.rest with
  | [] => c
  | ch :: rest =>
    { c with
      rest
      left := c.left - 1
      offset := c.offset + ch.utf8Size
      row := if ch = '\n' then c.row + 1 else c.row }

def skip : Nat → Cursor → Cursor
  | 0, c => c
  | n + 1, c => skip n c.advance

/-- What was read up to here is a token. -/
def close (c : Cursor) : Cursor :=
  { c with tokenEnd := c.offset, tokenRow := c.row }

/-- The cursor at the start of a source. -/
def ofChars (cs : List Char) : Cursor :=
  { rest := cs, left := cs.length }

end Cursor

/-! ## Blanks and comments -/

/-- The characters that may stand between any two tokens. -/
def isBlank (c : Char) : Bool :=
  let n := c.toNat
  (9 ≤ n && n ≤ 13) || n = 0x20 || n = 0x85 || n = 0xA0 || n = 0x1680 ||
  (0x2000 ≤ n && n ≤ 0x200B) || n = 0x2028 || n = 0x2029 || n = 0x202F || n = 0x205F ||
  n = 0x2060 || n = 0x3000 || n = 0xFEFF

/-- The blanks that the rules for omitted semicolons and for markup text know: no no-break spaces. -/
def isBreakingBlank (c : Char) : Bool :=
  let n := c.toNat
  (9 ≤ n && n ≤ 13) || n = 0x20 || n = 0x1680 || (0x2000 ≤ n && n ≤ 0x2006) ||
  (0x2008 ≤ n && n ≤ 0x200A) || n = 0x2028 || n = 0x2029 || n = 0x205F || n = 0x3000

/-- The null character stands in no token and in no comment. -/
def isNull (c : Char) : Bool :=
  c.toNat = 0

/-- The line ends that a line comment stops at. -/
def isLineEnd (c : Char) : Bool :=
  c = '\n' || c = '\r' || c.toNat = 0x2028 || c.toNat = 0x2029

/-- The line ends that make room for an omitted semicolon. -/
def isSemicolonLineEnd (c : Char) : Bool :=
  c = '\n' || c.toNat = 0x2028 || c.toNat = 0x2029

/-- The number of characters up to and with the end of a block comment, if it ends. -/
def blockCommentLength : List Char → Option Nat
  | '*' :: '/' :: _ => some 2
  | c :: rest => if isNull c then none else (blockCommentLength rest).map (· + 1)
  | [] => none

/-- The number of characters up to a line end. -/
def lineLength (cs : List Char) : Nat :=
  (cs.takeWhile fun c => ! isLineEnd c && ! isNull c).length

/-- The number of characters up to a line end of the kind that ends a markup comment. -/
def markupCommentLength (cs : List Char) : Nat :=
  (cs.takeWhile fun c => ! isSemicolonLineEnd c && ! isNull c).length

/-- Past a markup comment of which `n` characters open it; the comment is kept. -/
def Cursor.pastMarkupComment (c : Cursor) (n : Nat) : Cursor :=
  let d := c.skip (n + markupCommentLength (c.rest.drop n))
  let note := Node.mk { kind := "html_comment", start := c.offset, stop := d.offset, row := c.row } []
  { d with comments := note :: d.comments }

/-- Past blanks and comments, and past markup comments where they may stand. -/
def Cursor.triviaLoop (markup : Bool) : Nat → Cursor → Cursor
  | 0, c => c
  | fuel + 1, c =>
    match c.rest with
    | '/' :: '/' :: cs => triviaLoop markup fuel (c.skip (2 + lineLength cs))
    | '/' :: '*' :: cs =>
      match blockCommentLength cs with
      | some n => triviaLoop markup fuel (c.skip (2 + n))
      | none => c
    | '<' :: '!' :: '-' :: '-' :: _ =>
      if markup then triviaLoop markup fuel (c.pastMarkupComment 4) else c
    | '-' :: '-' :: '>' :: _ =>
      if markup then triviaLoop markup fuel (c.pastMarkupComment 3) else c
    | ch :: _ => if isBlank ch then triviaLoop markup fuel c.advance else c
    | [] => c

/-- Past blanks and comments between an operand and what follows it. -/
def Cursor.trivia (c : Cursor) : Cursor :=
  c.triviaLoop false c.left

/-- Past blanks and comments where a statement or an operand is to come; there a markup comment
counts as one. -/
def Cursor.triviaBefore (c : Cursor) : Cursor :=
  c.triviaLoop true c.left

/-- The fault of finding something else here: the next token, or the last one at the end of the
source. -/
def Cursor.fault (c : Cursor) : Fault :=
  let d := c.trivia
  match d.rest with
  | [] => { offset := d.offset, row := c.tokenRow }
  | _ => { offset := d.offset, row := d.row }

def unexpected {α : Type} : Parser α :=
  fun c => .fail c.fault

/-! ## Words and marks -/

/-- Characters that no name holds. -/
def isNameBreak (c : Char) : Bool :=
  c.toNat < 0x20 || isBlank c || ":;`\"'@#.,|^&<=>+-*/\\%?!~()[]\x7b\x7d".toList.contains c

/-- Characters that a name may begin with. -/
def isNameStart (c : Char) : Bool :=
  ! isNameBreak c && ! c.isDigit

def isHexDigit (c : Char) : Bool :=
  c.isDigit || ('a' ≤ c && c ≤ 'f') || ('A' ≤ c && c ≤ 'F')

def isOctalDigit (c : Char) : Bool :=
  '0' ≤ c && c ≤ '7'

/-- The length of the hexadecimal part of an escape: four digits, or any number in braces. -/
def unicodeEscapeLength : List Char → Option Nat
  | '{' :: cs =>
    let digits := cs.takeWhile isHexDigit
    if digits.isEmpty then none
    else if (cs.drop digits.length).head? = some '}' then some (digits.length + 2)
    else none
  | a :: b :: c :: d :: _ =>
    if isHexDigit a && isHexDigit b && isHexDigit c && isHexDigit d then some 4 else none
  | _ => none

/-- The number of characters of the name that the text goes on with. -/
def nameTailLength : Nat → List Char → Nat
  | 0, _ => 0
  | _ + 1, [] => 0
  | fuel + 1, '\\' :: 'u' :: cs =>
    match unicodeEscapeLength cs with
    | some n => 2 + n + nameTailLength fuel (cs.drop n)
    | none => 0
  | fuel + 1, c :: cs => if isNameBreak c then 0 else nameTailLength fuel cs + 1

/-- The number of characters of the name that the text starts with; zero if there is none. -/
def nameLength (fuel : Nat) : List Char → Nat
  | [] => 0
  | c :: cs => if c = '\\' || isNameStart c then nameTailLength fuel (c :: cs) else 0

/-- The marks of the grammar, longer ones before their beginnings. -/
def marks : List (String × List Char) :=
  [">>>=", "...", "===", "!==", "**=", "<<=", ">>=", ">>>", "&&=", "||=", "??=",
   "=>", "==", "!=", "<=", ">=", "&&", "||", "??", "?.", "++", "--", "+=", "-=", "*=", "/=", "%=",
   "&=", "|=", "^=", "<<", ">>", "**",
   "\x7b", "\x7d", "(", ")", "[", "]", ";", ",", "<", ">", "+", "-", "*", "/", "%", "&", "|", "^", "!",
   "~", "?", ":", "=", ".", "@", "#", "`"].map fun s => (s, s.toList)

/-- How the text at a place begins. -/
inductive Lead where
  /-- A name or keyword. -/
  | word (text : String)
  /-- A mark. -/
  | mark (text : String)
  /-- A quote that opens a string. -/
  | quote (q : Char)
  /-- A number. -/
  | digit
  /-- The end of the source. -/
  | done
  /-- Nothing that a token begins with. -/
  | other
  deriving BEq

/-- The mark that the text starts with. `?.` before a digit is a question mark and a number. -/
def markAt (cs : List Char) : Option String :=
  match cs with
  | '?' :: '.' :: d :: _ => if d.isDigit then some "?" else some "?."
  | _ => (marks.find? fun m => m.2.isPrefixOf cs).map (·.1)

/-- How the text at a cursor begins. -/
def Cursor.lead (c : Cursor) : Lead :=
  match c.rest with
  | [] => .done
  | ch :: cs =>
    if ch.isDigit then .digit
    else if ch = '\'' || ch = '"' then .quote ch
    else if ch = '.' && (cs.head?.map Char.isDigit).getD false then .digit
    else
      match nameLength c.left c.rest with
      | 0 => match markAt c.rest with
        | some m => .mark m
        | none => .other
      | n => .word (String.ofList (c.rest.take n))

/-- How the source goes on after an operand. -/
def peek : Parser Lead :=
  fun c => .ok c.trivia.lead c

/-- How the source goes on where a statement or an operand is to come. -/
def peekBefore : Parser Lead :=
  fun c => .ok c.triviaBefore.lead c

/-- The start of the next token, where a statement or an operand is to come. -/
def nextStart : Parser Cursor :=
  fun c => let d := c.triviaBefore; .ok d d

/-- Past a token of `n` characters. -/
def take (n : Nat) : Parser Unit :=
  fun c => .ok () (c.trivia.skip n).close

def mark (m : String) : Parser Unit :=
  fun c =>
    let d := c.trivia
    if d.lead == .mark m then .ok () (d.skip m.length).close else .fail c.fault

def mark? (m : String) : Parser Bool :=
  fun c =>
    let d := c.trivia
    if d.lead == .mark m then .ok true (d.skip m.length).close else .ok false c

def word (w : String) : Parser Unit :=
  fun c =>
    let d := c.trivia
    if d.lead == .word w then .ok () (d.skip w.length).close else .fail c.fault

def word? (w : String) : Parser Bool :=
  fun c =>
    let d := c.trivia
    if d.lead == .word w then .ok true (d.skip w.length).close else .ok false c

/-- Words that never are names, outside of properties. -/
def reservedWords : List String :=
  ["break", "case", "catch", "class", "const", "continue", "debugger", "default", "delete", "do",
   "else", "export", "extends", "false", "finally", "for", "function", "if", "import", "in",
   "instanceof", "new", "null", "return", "super", "switch", "this", "throw", "true", "try",
   "typeof", "var", "void", "while", "with"]

def isReserved (w : String) : Bool :=
  reservedWords.contains w

/-! ## Building nodes -/

/-- A node that starts at a cursor and ends with the last token. -/
def node (kind : String) (at_ : Cursor) (children : List Node) : Parser Node :=
  fun c => .ok (.mk { kind, start := at_.offset, stop := c.tokenEnd, row := at_.row } children) c

/-- A node that starts where another one does. -/
def nodeFrom (kind : String) (first : Node) (children : List Node) : Parser Node :=
  fun c => .ok (.mk { kind, start := first.start, stop := c.tokenEnd, row := first.row } children) c

/-- Any word, as a leaf. -/
def anyWord (kind : String) : Parser Node :=
  fun c =>
    let d := c.trivia
    match d.lead with
    | .word w => node kind d [] (d.skip w.length).close
    | _ => .fail c.fault

/-- A word that is not reserved, as a leaf. -/
def name (kind : String) : Parser Node :=
  fun c =>
    let d := c.trivia
    match d.lead with
    | .word w => if isReserved w then .fail c.fault else node kind d [] (d.skip w.length).close
    | _ => .fail c.fault

/-! ## Semicolons -/

/-- What the blanks and comments before a token say about an omitted semicolon. -/
inductive Gap where
  /-- A slash that opens no comment: none can be omitted here. -/
  | refuse
  /-- A block comment within its line: look on. -/
  | sameLine
  /-- Blanks and comments up to a token. -/
  | open

/-- Past the rest of a block comment, and whether it held a line end. -/
def gapBlock : List Char → Bool → List Char × Bool
  | '*' :: '/' :: cs, broken => (cs, broken)
  | c :: cs, broken => gapBlock cs (broken || isSemicolonLineEnd c)
  | [], broken => ([], broken)

/-- Past the blanks and comments at the start of the text. Unless `through` is set, a block comment
that no further comment follows ends the look. -/
def gap (through : Bool) : Nat → Bool → List Char → Gap × List Char
  | 0, _, cs => (.open, cs)
  | fuel + 1, broken, cs =>
    match cs.dropWhile isBreakingBlank with
    | '/' :: '/' :: cs =>
      gap through fuel broken (cs.dropWhile fun c => ! isSemicolonLineEnd c && ! isNull c)
    | '/' :: '*' :: cs =>
      let (cs, broken) := gapBlock cs broken
      if cs.head? ≠ some '/' && ! through && ! cs.isEmpty then
        (if broken then .open else .sameLine, cs)
      else gap through fuel broken cs
    | '/' :: cs => (.refuse, '/' :: cs)
    | cs => (.open, cs)

/-- After a line end, the next token decides whether a semicolon was omitted: none before a mark
that continues an expression. -/
def semicolonBefore : List Char → Bool
  | [] => true
  | '.' :: cs => (cs.head?.map Char.isDigit).getD false
  | '+' :: cs => cs.head? = some '+'
  | '-' :: cs => cs.head? = some '-'
  | '!' :: cs => cs.head? ≠ some '='
  | 'i' :: 'n' :: cs =>
    if ! (cs.head?.map Char.isAlpha).getD false then false
    else if "stanceof".toList.isPrefixOf cs then ((cs.drop 8).head?.map Char.isAlpha).getD false
    else true
  | c :: _ => ! "`,:;*%><=[(?^|&/".toList.contains c

/-- Whether a semicolon may be omitted before the text. After a complete expression (`operand`) a
comment alone is no reason to. -/
def omittedSemicolon (operand : Bool) : Nat → List Char → Bool
  | _, [] => true
  | 0, _ => false
  | fuel + 1, c :: cs =>
    -- a comment may settle the matter, or only be passed
    let (verdict, rest) :=
      if c = '/' then
        match gap false fuel false (c :: cs) with
        | (.refuse, _) => (some false, [])
        | (.open, rest) =>
          if ! operand && rest.head? ≠ some ',' && rest.head? ≠ some '=' then (some true, [])
          else (none, rest)
        | (.sameLine, rest) => (none, rest)
      else (none, c :: cs)
    match verdict with
    | some v => v
    | none =>
      match rest with
      | [] => true
      | d :: ds =>
        if d = '}' || isNull d then true
        else if isSemicolonLineEnd d then
          match gap true fuel false ds with
          | (.refuse, _) => false
          | (_, rest) => semicolonBefore rest
        else if isBreakingBlank d then omittedSemicolon operand fuel ds
        else false

/-- Whether a semicolon may be omitted here. -/
def Cursor.mayOmitSemicolon (c : Cursor) (operand : Bool) : Bool :=
  omittedSemicolon operand (c.left + 1) c.rest

/-- Past the blanks and the comment at a cursor, if there is a comment. -/
def Cursor.pastComment (c : Cursor) : Option Cursor :=
  let d := c.skip (c.rest.takeWhile isBlank).length
  match d.rest with
  | '/' :: '/' :: cs => some (d.skip (2 + lineLength cs))
  | '/' :: '*' :: cs => (blockCommentLength cs).map fun n => d.skip (2 + n)
  | _ => none

/-- A semicolon may be omitted here or after one of the comments that follow. -/
def mayOmitLoop (operand : Bool) : Nat → Cursor → Bool
  | 0, _ => false
  | fuel + 1, c =>
    c.mayOmitSemicolon operand ||
      match c.pastComment with
      | some d => mayOmitLoop operand fuel d
      | none => false

/-- Whether a statement may end here without a semicolon. -/
def mayEnd (operand : Bool) : Parser Bool :=
  fun c => .ok (mayOmitLoop operand (c.left + 1) c) c

/-- The end of a statement: a semicolon, or a place where it may be omitted. -/
def semicolon (operand : Bool) : Parser Unit :=
  fun c =>
    if mayOmitLoop operand (c.left + 1) c then .ok () c
    else mark ";" c

end LazyLint.Script
