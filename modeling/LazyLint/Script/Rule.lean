import LazyLint.Script.Literal
import LazyLint.Script.Pattern

/-!
# The rules of the grammar that contain themselves

Every construct of the language nests through one of the rules below. The functions of the reader
are therefore not recursive: they take the parser of nested rules as an argument, `sub`, and
`LazyLint.Script.Source` closes the circle once, on a bound for the nesting.
-/

namespace LazyLint.Script

open Cst (Node Head)

/-- The rules through which constructs nest. -/
inductive Rule where
  | statement
  /-- An expression without top-level commas. `membership` admits the operator `in`; `cover` admits
  an object or array that only a pattern could be. -/
  | expression (membership cover : Bool)
  /-- An operand of an operator. -/
  | operand
  /-- An expression that starts with `new`. -/
  | construct
  /-- A markup element. -/
  | element

/-- How nested rules are read. -/
abbrev Sub := Rule → Parser Node

/-- A node from the start of one node to the end of another. -/
def spanning (kind : String) (first last : Node) (children : List Node) : Node :=
  .mk { kind, start := first.start, stop := last.stop, row := first.row } children

/-- The fault of a node that may not stand where it does. -/
def refuse {α : Type} (n : Node) : Parser α :=
  Parser.stop { offset := n.start, row := n.row }

/-! ## Lists of expressions -/

/-- The operands of a sequence after the first one, the latest first. -/
def sequenceLoop (sub : Sub) : Nat → List Node → Parser (List Node)
  | 0, acc => pure acc
  | fuel + 1, acc => do
    if ← mark? "," then sequenceLoop sub fuel ((← sub (.expression true false)) :: acc)
    else pure acc

/-- An expression, or several with commas between them, as one node. -/
def expressions (sub : Sub) : Parser Node := do
  let first ← sub (.expression true false)
  let c ← Parser.here
  match ← sequenceLoop sub c.left [first] with
  | [] | [_] => pure first
  | last :: before => pure (spanning "sequence_expression" first last (last :: before).reverse)

def parenthesized (sub : Sub) : Parser Node := do
  let start ← nextStart
  mark "("
  let inner ← expressions sub
  mark ")"
  node "parenthesized_expression" start [inner]

/-- An element of a list: an expression, or three dots and one. -/
def listElement (sub : Sub) (cover : Bool) : Parser Node := do
  let start ← nextStart
  if ← mark? "..." then
    let inner ← sub (.expression true cover)
    node "spread_element" start [inner]
  else sub (.expression true cover)

/-- The elements up to a closing mark, the latest first; between two commas there may be none. -/
def slotsLoop (sub : Sub) (cover : Bool) (closing : String) : Nat → List Node → Parser (List Node)
  | 0, _ => unexpected
  | fuel + 1, acc => do
    if ← mark? closing then pure acc
    else if ← mark? "," then slotsLoop sub cover closing fuel acc
    else
      let e ← listElement sub cover
      if ← mark? closing then pure (e :: acc)
      else
        mark ","
        slotsLoop sub cover closing fuel (e :: acc)

/-- Elements with commas between them, between two marks. -/
def slots (sub : Sub) (cover : Bool) (opening closing : String) : Parser (List Node) := do
  mark opening
  let c ← Parser.here
  return (← slotsLoop sub cover closing (c.left + 1) []).reverse

def arguments (sub : Sub) : Parser Node := do
  let start ← nextStart
  let elements ← slots sub false "(" ")"
  node "arguments" start elements

/-- An array, which a pattern may claim later. -/
def arrayLiteral (sub : Sub) : Parser Node := do
  let start ← nextStart
  let elements ← slots sub true "[" "]"
  node "array" start elements

/-! ## Templates -/

/-- The number of characters of a template up to its end, an escape or a substitution. -/
def templateCharsLength : List Char → Nat
  | [] => 0
  | '$' :: '{' :: _ => 0
  | c :: cs => if c = '`' || c = '\\' || isNull c then 0 else templateCharsLength cs + 1

/-- The pieces of a template up to its closing mark, the latest first. -/
def templatePieces (sub : Sub) : Nat → List Node → Parser (List Node)
  | 0, _ => unexpected
  | fuel + 1, acc => fun c =>
    match c.rest with
    | '`' :: _ => .ok acc c.advance.close
    | '\\' :: _ => (do templatePieces sub fuel ((← escape) :: acc)) c
    | '$' :: '{' :: _ =>
      (do
        Parser.goto (c.skip 2).close
        let inner ← expressions sub
        mark "\x7d"
        let n ← node "template_substitution" c [inner]
        templatePieces sub fuel (n :: acc)) c
    | _ =>
      match templateCharsLength c.rest with
      | 0 => .fail c.fault
      | n => (do templatePieces sub fuel ((← leaf "string_fragment" n) :: acc)) c

def template (sub : Sub) : Parser Node := do
  let start ← nextStart
  mark "`"
  let pieces ← templatePieces sub (start.left + 1) []
  node "template_string" start pieces.reverse

/-! ## Blocks -/

/-- The statements up to a closing brace or the end of the source, the latest first. -/
def statementsLoop (sub : Sub) : Nat → List Node → Parser (List Node)
  | 0, _ => unexpected
  | fuel + 1, acc => do
    match ← peekBefore with
    | .done | .mark "\x7d" => pure acc
    | _ => statementsLoop sub fuel ((← sub .statement) :: acc)

/-- The rest of a block after its opening brace. -/
def blockRest (sub : Sub) (start : Cursor) : Parser Node := do
  let statements ← statementsLoop sub (start.left + 1) []
  Parser.goto (← nextStart)
  mark "\x7d"
  node "statement_block" start statements.reverse

def block (sub : Sub) : Parser Node := do
  let start ← nextStart
  mark "\x7b"
  blockRest sub start

/-- A block where an object could stand as well: an `await` that opens it and is followed by a
parenthesis is a name that is called. -/
def ambiguousBlock (sub : Sub) : Parser Node := do
  let start ← nextStart
  mark "\x7b"
  let first ← nextStart
  if first.lead == .word "await" && ((first.skip 5).trivia.lead == .mark "(") then
    Parser.goto { first with awaitName := some first.offset }
  blockRest sub start

/-- Braces that read as a block or, where that fails or the block prefers it, as something else. -/
def blockOr (sub : Sub) (other : Parser Node) (prefers : Node → Cursor → Bool) : Parser Node :=
  fun c =>
    match ambiguousBlock sub c with
    | .ok b d =>
      if prefers b d then
        match other c with
        | .ok e d => .ok e d
        | .fail _ => .ok b d
      else .ok b d
    | .fail e =>
      match other c with
      | .ok x d => .ok x d
      | .fail e' => .fail (e.later e')

/-! ## Functions -/

/-- The parameters of a function. -/
def formalParametersLoop (sub : Sub) : Nat → List Node → Parser (List Node)
  | 0, _ => unexpected
  | fuel + 1, acc => do
    if ← mark? ")" then pure acc
    else
      let e ← listElement sub true
      match toElement e with
      | none => refuse e
      | some p =>
        let c ← Parser.here
        Parser.goto { c with cover := none }
        if ← mark? ")" then pure (p :: acc)
        else
          mark ","
          formalParametersLoop sub fuel (p :: acc)

/-- The parameters of a function, in parentheses. -/
def formalParameters (sub : Sub) : Parser Node := do
  let start ← nextStart
  mark "("
  let ps ← formalParametersLoop sub (start.left + 1) []
  node "formal_parameters" start ps.reverse

/-- The name of a declaration, if one stands here. -/
def declaredName? : Parser (Option Node) := do
  match ← peek with
  | .word w => if isReserved w then pure none else return some (← name "identifier")
  | _ => pure none

/-- A function from the keyword on. With a name it is a declaration where `declared` asks for one,
and an expression otherwise. -/
def functionFrom (sub : Sub) (declared : Bool) (start : Cursor) : Parser Node := do
  word "function"
  let generator ← mark? "*"
  let name? ← declaredName?
  let params ← formalParameters sub
  let body ← block sub
  let kind :=
    match declared && name?.isSome, generator with
    | true, false => "function_declaration"
    | true, true => "generator_function_declaration"
    | false, false => "function_expression"
    | false, true => "generator_function"
  node kind start
    ((name?.map (·.withField "name")).toList ++
      [params.withField "parameters", body.withField "body"])

end LazyLint.Script
