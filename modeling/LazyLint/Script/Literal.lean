import LazyLint.Script.Cursor

/-!
# Literals

Strings, numbers and regular expressions, which are read character by character: the blanks between
tokens do not stand inside them.
-/

namespace LazyLint.Script

open Cst (Node Head)

/-! ## Numbers -/

/-- The length of a run of digits with single underscores between them. -/
def digitRun (isDigit : Char → Bool) : List Char → Nat
  | [] => 0
  | '_' :: c :: cs => if isDigit c then 2 + digitRun isDigit cs else 0
  | c :: cs => if isDigit c then 1 + digitRun isDigit cs else 0

/-- The length of digits that start with a digit. -/
def digits (isDigit : Char → Bool) (cs : List Char) : Nat :=
  if (cs.head?.map isDigit).getD false then digitRun isDigit cs else 0

/-- The length of an exponent, zero if there is none. -/
def exponentLength : List Char → Nat
  | e :: cs =>
    if e = 'e' || e = 'E' then
      let sign := if cs.head? = some '+' || cs.head? = some '-' then 1 else 0
      match digits Char.isDigit (cs.drop sign) with
      | 0 => 0
      | n => 1 + sign + n
    else 0
  | [] => 0

/-- A run of digits may carry a fraction or an exponent unless it starts with a zero that another
zero or an underscore follows. -/
def takesFraction (run : List Char) : Bool :=
  match run with
  | ['0'] => true
  | '0' :: c :: _ => '1' ≤ c && c ≤ '9'
  | c :: _ => '1' ≤ c && c ≤ '9'
  | [] => false

/-- The length of a literal in another base, zero if there is none. -/
def basedLength (cs : List Char) : Nat :=
  match cs with
  | '0' :: b :: rest =>
    let n :=
      if b = 'x' || b = 'X' then digits isHexDigit rest
      else if b = 'o' || b = 'O' then digits isOctalDigit rest
      else if b = 'b' || b = 'B' then digits (fun c => c = '0' || c = '1') rest
      else 0
    if n = 0 then 0 else 2 + n
  | _ => 0

/-- With the mark of a big integer, if it follows. -/
def withBigMark (cs : List Char) (n : Nat) : Nat :=
  if n ≠ 0 && (cs.drop n).head? = some 'n' then n + 1 else n

/-- The length of a decimal literal with a fraction or an exponent, zero if there is none. -/
def fractionLength (cs : List Char) : Nat :=
  let whole := digits Char.isDigit cs
  let rest := cs.drop whole
  match rest with
  | '.' :: after =>
    let frac := digits Char.isDigit after
    if whole = 0 then
      if frac = 0 then 0 else 1 + frac + exponentLength (after.drop frac)
    else if takesFraction (cs.take whole) then
      whole + 1 + frac + exponentLength (after.drop frac)
    else 0
  | _ =>
    if takesFraction (cs.take whole) then
      match exponentLength rest with
      | 0 => 0
      | n => whole + n
    else 0

/-- The length of the number that the text starts with: the longest reading counts. -/
def numberLength (cs : List Char) : Nat :=
  max (withBigMark cs (basedLength cs))
    (max (withBigMark cs (digits Char.isDigit cs)) (fractionLength cs))

def number : Parser Node :=
  fun c =>
    let d := c.trivia
    match numberLength d.rest with
    | 0 => .fail c.fault
    | n => node "number" d [] (d.skip n).close

/-! ## Strings -/

/-- The number of characters of the escape that follows a backslash, if the grammar knows it. -/
def escapeLength : List Char → Option Nat
  | 'x' :: a :: b :: _ => if isHexDigit a && isHexDigit b then some 3 else none
  | 'x' :: _ => none
  | 'u' :: cs => (unicodeEscapeLength cs).map (· + 1)
  | a :: cs =>
    if isOctalDigit a then some (1 + ((cs.take 2).takeWhile isOctalDigit).length)
    else if isNull a then none
    else if (a = '\r' || a = '?') && (cs.head?.map isSemicolonLineEnd).getD false then some 2
    else some 1
  | [] => none

def escape : Parser Node :=
  fun c =>
    match escapeLength (c.rest.drop 1) with
    | some n => node "escape_sequence" c [] (c.skip (n + 1)).close
    | none => .fail { offset := c.offset, row := c.row }

/-- A leaf over the next `n` characters. -/
def leaf (kind : String) (n : Nat) : Parser Node :=
  fun c => node kind c [] (c.skip n).close

/-- The closing quote of a string after a line end, which only blanks and comments may separate from
it. A mended string goes on to the next quote instead. -/
def closeBroken (q : Char) (acc : List Node) : Parser (List Node) :=
  fun c =>
    let d := c.trivia
    let lost := (d.rest.takeWhile (· ≠ q)).length
    if lost = 0 && ! d.rest.isEmpty then .ok acc d.advance.close
    else if c.mending && lost < d.left then
      let e := d.skip lost
      let bad := Node.mk { kind := "ERROR", start := d.offset, stop := e.offset, row := d.row } []
      .ok (bad :: acc) e.advance.close
    else .fail { offset := c.offset, row := c.row }

/-- Characters that stand for themselves between quotes. -/
def isStringChar (q c : Char) : Bool :=
  c ≠ q && c ≠ '\\' && c ≠ '\n' && c ≠ '\r' && ! isNull c

/-- The pieces of a string up to its closing quote, the latest first. -/
def stringPieces (q : Char) : Nat → List Node → Parser (List Node)
  | 0, _ => unexpected
  | fuel + 1, acc => fun c =>
    match c.rest with
    | [] => .fail { offset := c.offset, row := c.tokenRow }
    | ch :: _ =>
      if ch = q then .ok acc c.advance.close
      else if ch = '\\' then (do stringPieces q fuel ((← escape) :: acc)) c
      else
        match (c.rest.takeWhile (isStringChar q)).length with
        | 0 => closeBroken q acc c
        | n => (do stringPieces q fuel ((← leaf "string_fragment" n) :: acc)) c

/-- A string in either kind of quotes. -/
def stringLiteral : Parser Node := do
  let start ← nextStart
  match start.lead with
  | .quote q =>
    Parser.goto start.advance.close
    let pieces ← stringPieces q (start.left + 1) []
    node "string" start pieces.reverse
  | _ => unexpected

/-! ## Regular expressions -/

/-- Characters that no regular expression holds. -/
def isRegexBreak (c : Char) : Bool :=
  c = '\n' || isNull c

/-- The length of a bracketed class after its opening bracket. -/
def regexClassLength : List Char → Option Nat
  | ']' :: _ => some 1
  | '\\' :: c :: cs => if isRegexBreak c then none else (regexClassLength cs).map (· + 2)
  | c :: cs => if isRegexBreak c || c = '\\' then none else (regexClassLength cs).map (· + 1)
  | [] => none

/-- The length of a pattern up to the slash that closes it. -/
def regexPatternLength : Nat → List Char → Option Nat
  | 0, _ => none
  | _ + 1, [] => none
  | fuel + 1, c :: cs =>
    if c = '/' then some 0
    else if isRegexBreak c then none
    else if c = '\\' then
      match cs with
      | d :: ds => if isRegexBreak d then none else (regexPatternLength fuel ds).map (· + 2)
      | [] => none
    else if c = '[' then
      match regexClassLength cs with
      | some n => (regexPatternLength fuel (cs.drop n)).map (· + (n + 1))
      | none => none
    else (regexPatternLength fuel cs).map (· + 1)

/-- A regular expression: a pattern between slashes, and flags. -/
def regex : Parser Node := do
  let start ← nextStart
  match regexPatternLength (start.left + 1) (start.rest.drop 1) with
  | none | some 0 => unexpected
  | some n =>
    Parser.goto start.advance.close
    let pattern ← leaf "regex_pattern" n
    let slash ← Parser.here
    let after := slash.advance.close
    Parser.goto after
    match (after.rest.takeWhile fun c => 'a' ≤ c && c ≤ 'z').length with
    | 0 => node "regex" start [pattern]
    | k =>
      let flags ← leaf "regex_flags" k
      node "regex" start [pattern, flags]

end LazyLint.Script
