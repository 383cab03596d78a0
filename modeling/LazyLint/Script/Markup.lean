import LazyLint.Script.Rule

/-!
# Markup elements

Elements with tags, attributes and children. Between tags the source is text, not tokens, so the
children are read character by character.
-/

namespace LazyLint.Script

open Cst (Node Head)

def isTagChar (c : Char) : Bool :=
  c.isAlphanum || c = '_' || c = '$'

/-- The length of the part of a markup name from its first hyphen on, after a word. -/
def hyphenatedLength (w : String) (tail : List Char) : Nat :=
  if tail.head? = some '-' && w.toList.all isTagChar then
    (tail.takeWhile fun x => isTagChar x || x = '-').length
  else 0

/-- Whether a name with a hyphen stands here. -/
def isHyphenated (c : Cursor) : Bool :=
  match c.trivia.lead with
  | .word w => hyphenatedLength w (c.trivia.rest.drop w.length) ≠ 0
  | _ => false

/-- A name in markup, which may hold hyphens. -/
def markupName (kind : String) (reservedToo : Bool) : Parser Node :=
  fun c =>
    let d := c.trivia
    match d.lead with
    | .word w =>
      let n := w.length
      match hyphenatedLength w (d.rest.drop n) with
      | 0 =>
        if isReserved w && ! reservedToo then .fail c.fault
        else node kind d [] (d.skip n).close
      | more => node kind d [] (d.skip (n + more)).close
    | _ => .fail c.fault

/-- The dotted rest of an element's name. -/
def markupPath : Nat → Node → Parser Node
  | 0, n => pure n
  | fuel + 1, n => do
    if ← mark? "." then
      let p ← anyWord "property_identifier"
      markupPath fuel (← nodeFrom "member_expression" n [n, p])
    else pure n

/-- The name of an element: a name, a dotted name, or a name in a namespace. -/
def elementName : Parser Node := do
  let hyphenated := isHyphenated (← Parser.here)
  let first ← markupName "identifier" false
  match ← peek with
  | .mark ":" =>
    mark ":"
    let second ← markupName "identifier" false
    nodeFrom "jsx_namespace_name" first [first, second]
  | .mark "." =>
    if hyphenated then pure first
    else
      let c ← Parser.here
      markupPath c.left first
  | _ => pure first

/-- An expression in braces, or nothing in braces. -/
def markupExpression (sub : Sub) : Parser Node := do
  let start ← nextStart
  mark "\x7b"
  let inner ←
    match ← peekBefore with
    | .mark "\x7d" => do
      Parser.goto (← nextStart)
      pure []
    | .mark "..." => pure [← listElement sub false]
    | _ => pure [← expressions sub]
  mark "\x7d"
  node "jsx_expression" start inner

/-- The length of a character reference after its ampersand, if there is one. -/
def characterReferenceLength : List Char → Option Nat
  | '#' :: x :: cs =>
    if x = 'x' || x = 'X' then
      let n := (cs.takeWhile isHexDigit).length
      if 1 ≤ n && n ≤ 6 && (cs.drop n).head? = some ';' then some (n + 3) else none
    else
      let n := ((x :: cs).takeWhile Char.isDigit).length
      if 1 ≤ n && n ≤ 5 && ((x :: cs).drop n).head? = some ';' then some (n + 2) else none
  | cs =>
    let n := (cs.takeWhile Char.isAlpha).length
    if 1 ≤ n && n ≤ 30 && (cs.drop n).head? = some ';' then some (n + 1) else none

/-- The number of plain characters in an attribute's string. An ampersand is one of them with
whatever follows it, unless that could begin a character reference. -/
def attributeCharsLength (q : Char) : List Char → Nat
  | '&' :: c :: cs =>
    if c = '#' || c.isAlpha || isNull c then 0 else attributeCharsLength q cs + 2
  | c :: cs => if c = q || c = '&' || isNull c then 0 else attributeCharsLength q cs + 1
  | [] => 0

/-- The pieces of an attribute's string up to its closing quote, the latest first. -/
def attributePieces (q : Char) : Nat → List Node → Parser (List Node)
  | 0, _ => unexpected
  | fuel + 1, acc => fun c =>
    match attributeCharsLength q c.rest with
    | 0 =>
      match c.rest with
      | '&' :: cs =>
        match characterReferenceLength cs with
        | some k =>
          (do attributePieces q fuel ((← leaf "html_character_reference" (k + 1)) :: acc)) c
        | none => .fail c.fault
      | ch :: _ => if ch = q then .ok acc c.advance.close else .fail c.fault
      | [] => .fail c.fault
    | n => (do attributePieces q fuel ((← leaf "string_fragment" n) :: acc)) c

/-- A string in an attribute, taken as it stands. -/
def markupString : Parser Node := do
  let start ← nextStart
  match start.lead with
  | .quote q =>
    Parser.goto start.advance.close
    let pieces ← attributePieces q (start.left + 1) []
    node "string" start pieces.reverse
  | _ => unexpected

/-- An attribute: a name, and a value if there is one. -/
def markupAttribute (sub : Sub) : Parser Node := do
  let start ← nextStart
  let first ← markupName "property_identifier" true
  let key ←
    match ← peek with
    | .mark ":" => do
      mark ":"
      let second ← markupName "identifier" true
      nodeFrom "jsx_namespace_name" first [first.recast "identifier" [], second]
    | _ => pure first
  if ← mark? "=" then
    let value ←
      match ← peek with
      | .quote _ => markupString
      | .mark "\x7b" => markupExpression sub
      | .mark "<" => sub .element
      | _ => unexpected
    node "jsx_attribute" start [key, value]
  else node "jsx_attribute" start [key]

/-- The attributes of a tag, the latest first. -/
def attributesLoop (sub : Sub) : Nat → List Node → Parser (List Node)
  | 0, acc => pure acc
  | fuel + 1, acc => do
    match ← peek with
    | .word _ => attributesLoop sub fuel ((← markupAttribute sub) :: acc)
    | .mark "\x7b" => attributesLoop sub fuel ((← markupExpression sub) :: acc)
    | _ => pure acc

/-- The number of characters of the text at a place, and whether it is more than line ends with the
blanks after them. -/
def markupTextLength : List Char → Bool → Nat × Bool
  | [], _ => (0, false)
  | c :: cs, atLineEnd =>
    if "<>\x7b\x7d&".toList.contains c || isNull c then (0, false)
    else
      let atLineEnd := c = '\n' || (atLineEnd && isBreakingBlank c)
      let (n, more) := markupTextLength cs atLineEnd
      (n + 1, more || ! atLineEnd)

/-- The children of an element up to its closing tag, the latest first. -/
def childrenLoop (sub : Sub) : Nat → List Node → Parser (List Node)
  | 0, _ => unexpected
  | fuel + 1, acc => fun c =>
    match markupTextLength c.rest false with
    | (n, true) => (do childrenLoop sub fuel ((← leaf "jsx_text" n) :: acc)) c
    | (n, false) =>
      let d := c.skip n
      match d.rest with
      | '<' :: '/' :: _ => .ok acc d
      | '<' :: _ => (do childrenLoop sub fuel ((← sub .element) :: acc)) { d with tokenEnd := c.tokenEnd }
      | '{' :: _ => (do childrenLoop sub fuel ((← markupExpression sub) :: acc)) d
      | '&' :: cs =>
        match characterReferenceLength cs with
        | some k => (do childrenLoop sub fuel ((← leaf "html_character_reference" (k + 1)) :: acc)) d
        | none => .fail d.fault
      | _ => .fail d.fault

/-- The angle that ends a tag, whatever follows it. -/
def closeAngle : Parser Unit :=
  fun c =>
    let d := c.trivia
    match d.rest with
    | '>' :: _ => .ok () d.advance.close
    | _ => .fail c.fault

def closingTag : Parser Node := do
  let start ← Parser.here
  Parser.goto (start.skip 2).close
  let name ←
    match ← peek with
    | .word _ => pure [← elementName]
    | _ => pure []
  closeAngle
  node "jsx_closing_element" start name

/-- The children and the closing tag of an element after its opening tag. -/
def elementRest (sub : Sub) (start : Cursor) (opening : Node) : Parser Node := do
  let c ← Parser.here
  let children ← childrenLoop sub (c.left + 1) []
  let closing ← closingTag
  node "jsx_element" start ([opening] ++ children.reverse ++ [closing])

/-- An element: a tag that closes itself, or tags around children. -/
def element (sub : Sub) : Parser Node := do
  let start ← nextStart
  Parser.goto start.advance.close
  let (name, attributes) ←
    match ← peek with
    | .word _ => do
      let n ← elementName
      let c ← Parser.here
      pure ([n], (← attributesLoop sub c.left []).reverse)
    -- a fragment has no name
    | _ => pure ([], [])
  let c ← Parser.here
  let d := c.trivia
  match d.rest with
  | '/' :: '>' :: _ =>
    if name.isEmpty then unexpected
    else
      Parser.goto (d.skip 2).close
      node "jsx_self_closing_element" start (name ++ attributes)
  | '>' :: _ =>
    Parser.goto d.advance.close
    let opening ← node "jsx_opening_element" start (name ++ attributes)
    elementRest sub start opening
  | _ => unexpected

end LazyLint.Script
