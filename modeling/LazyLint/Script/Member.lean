import LazyLint.Script.Rule

/-!
# Objects and classes

The members of objects and classes share their keys and their methods. What a word such as `get`
means is decided by what follows it: before another key it is a modifier, otherwise it is the key.
-/

namespace LazyLint.Script

open Cst (Node Head)

/-! ## Keys -/

/-- Whether a key can start so. -/
def startsKey : Lead → Bool
  | .word _ | .quote _ | .digit | .mark "[" | .mark "#" => true
  | _ => false

/-- A name with a number sign before it. -/
def privateName : Parser Node := do
  let start ← nextStart
  mark "#"
  let c ← Parser.here
  match nameLength c.left c.rest with
  | 0 => unexpected
  | n =>
    Parser.goto (c.skip n).close
    node "private_property_identifier" start []

def propertyKey (sub : Sub) : Parser Node := do
  match ← peek with
  | .word _ => anyWord "property_identifier"
  | .quote _ => stringLiteral
  | .digit => number
  | .mark "#" => privateName
  | .mark "[" =>
    let start ← nextStart
    mark "["
    let inner ← sub (.expression true false)
    mark "]"
    node "computed_property_name" start [inner]
  | _ => unexpected

/-! ## Decorators -/

/-- The dotted name of a decorator. -/
def decoratorPath : Nat → Node → Parser Node
  | 0, n => pure n
  | fuel + 1, n => do
    if ← mark? "." then
      let p ← anyWord "property_identifier"
      decoratorPath fuel (← nodeFrom "member_expression" n [n, p])
    else pure n

/-- The decorators that stand here, the latest first. -/
def decoratorsLoop (sub : Sub) : Nat → List Node → Parser (List Node)
  | 0, acc => pure acc
  | fuel + 1, acc => do
    match ← peekBefore with
    | .mark "@" =>
      let start ← nextStart
      mark "@"
      let path ← decoratorPath start.left (← name "identifier")
      let target ←
        match ← peek with
        | .mark "(" => do
          let args ← arguments sub
          nodeFrom "call_expression" path [path.withField "function", args.withField "arguments"]
        | _ => pure path
      decoratorsLoop sub fuel ((← node "decorator" start [target]) :: acc)
    | _ => pure acc

def decorators (sub : Sub) : Parser (List Node) := do
  let c ← Parser.here
  return (← decoratorsLoop sub c.left []).reverse

/-! ## Methods -/

/-- The rest of a method after its key. -/
def methodRest (sub : Sub) (start : Cursor) (notes : List Node) (key : Node) : Parser Node := do
  let params ← formalParameters sub
  let body ← block sub
  node "method_definition" start
    (notes ++ [key.withField "name", params.withField "parameters", body.withField "body"])

/-- Whether the word here is a modifier: another key follows it, and no line end that would make it
a key of its own where `lines` count. -/
def isModifier (w : String) (lines star : Bool) : Parser Bool :=
  fun c =>
    let d := c.trivia
    if d.lead == .word w then
      let e := (d.skip w.length).close
      let next := e.trivia.lead
      .ok ((startsKey next || (star && next == .mark "*")) &&
        ! (lines && mayOmitLoop false (e.left + 1) e)) c
    else .ok false c

/-- The modifiers before a key; they leave no node. -/
def modifiers (lines : Bool) : Parser Bool := do
  let isStatic ← isModifier "static" lines true
  if isStatic then word "static"
  let isAsync ← isModifier "async" lines true
  if isAsync then word "async"
  if ← mark? "*" then pure true
  else
    let getter ← isModifier "get" (lines && ! isStatic) false
    let setter ← isModifier "set" lines false
    if getter then word "get"
    if setter then word "set"
    pure (isAsync || getter || setter)

/-! ## Objects -/

/-- The rest of a property after a key that is no plain name. -/
def keyedRest (sub : Sub) (start : Cursor) (notes : List Node) (key : Node) (method : Bool) :
    Parser Node := do
  match ← peek with
  | .mark "(" => methodRest sub start notes key
  | .mark ":" =>
    if method then unexpected
    else
      mark ":"
      let value ← sub (.expression true true)
      node "pair" start [key.withField "key", value.withField "value"]
  | _ => unexpected

def property (sub : Sub) : Parser Node := do
  let start ← nextStart
  if ← mark? "..." then
    let inner ← sub (.expression true true)
    node "spread_element" start [inner]
  else
    let notes ← decorators sub
    let method ← modifiers false
    let at_ ← nextStart
    match at_.lead with
    | .word w =>
      let key ← anyWord "property_identifier"
      match ← peek with
      | .mark "(" => methodRest sub start notes key
      | .mark ":" => keyedRest sub start notes key method
      | .mark "=" =>
        if method || isReserved w then unexpected
        else
          -- only a pattern may hold this, so it is pending until one claims it
          let before := (← Parser.here).trivia
          mark "="
          let value ← sub (.expression true false)
          let target := key.recast "shorthand_property_identifier_pattern" []
          let n ← node "object_assignment_pattern" start [target, value]
          let c ← Parser.here
          let pending : Fault := { offset := before.offset, row := before.row }
          Parser.goto { c with cover := c.cover <|> some pending }
          pure n
      | _ =>
        if method || isReserved w then unexpected
        else pure (key.recast "shorthand_property_identifier" [])
    | _ => keyedRest sub start notes (← propertyKey sub) method

/-- The properties up to the closing brace, the latest first. -/
def propertiesLoop (sub : Sub) : Nat → List Node → Parser (List Node)
  | 0, _ => unexpected
  | fuel + 1, acc => do
    Parser.goto (← nextStart)
    if ← mark? "\x7d" then pure acc
    else if ← mark? "," then propertiesLoop sub fuel acc
    else
      let p ← property sub
      if ← mark? "\x7d" then pure (p :: acc)
      else
        mark ","
        propertiesLoop sub fuel (p :: acc)

/-- An object, which a pattern may claim later. -/
def objectLiteral (sub : Sub) : Parser Node := do
  let start ← nextStart
  mark "\x7b"
  let ps ← propertiesLoop sub (start.left + 1) []
  node "object" start ps.reverse

/-! ## Classes -/

/-- The rest of a field after its key. -/
def fieldRest (sub : Sub) (start : Cursor) (notes : List Node) (key : Node) : Parser Node := do
  if ← mark? "=" then
    let value ← sub (.expression true false)
    let n ← node "field_definition" start
      (notes ++ [key.withField "property", value.withField "value"])
    semicolon true
    pure n
  else
    let n ← node "field_definition" start (notes ++ [key.withField "property"])
    semicolon false
    pure n

def classMember (sub : Sub) : Parser Node := do
  let start ← nextStart
  let notes ← decorators sub
  let at_ ← nextStart
  if notes.isEmpty && at_.lead == .word "static" && ((at_.skip 6).trivia.lead == .mark "\x7b") then
    word "static"
    let body ← block sub
    node "class_static_block" start [body.withField "body"]
  else
    let method ← modifiers true
    let key ← propertyKey sub
    match ← peek with
    | .mark "(" => methodRest sub start notes key
    | _ => if method then unexpected else fieldRest sub start notes key

/-- The members up to the closing brace, the latest first; semicolons between them leave no node. -/
def classMembersLoop (sub : Sub) : Nat → List Node → Parser (List Node)
  | 0, _ => unexpected
  | fuel + 1, acc => do
    Parser.goto (← nextStart)
    if ← mark? "\x7d" then pure acc
    else if ← mark? ";" then classMembersLoop sub fuel acc
    else classMembersLoop sub fuel ((← classMember sub) :: acc)

def classBody (sub : Sub) : Parser Node := do
  let start ← nextStart
  mark "\x7b"
  let members ← classMembersLoop sub (start.left + 1) []
  node "class_body" start members.reverse

/-- A class from the keyword on. With a name it is a declaration where `declared` asks for one. -/
def classFrom (sub : Sub) (declared : Bool) (start : Cursor) (notes : List Node) : Parser Node := do
  word "class"
  let name? ← declaredName?
  let beforeExtends ← nextStart
  let heritage ←
    if beforeExtends.lead == .word "extends" then do
      word "extends"
      let base ← sub (.expression true false)
      pure [← node "class_heritage" beforeExtends [base]]
    else pure []
  let body ← classBody sub
  node (if declared && name?.isSome then "class_declaration" else "class") start
    (notes ++ (name?.map (·.withField "name")).toList ++ heritage ++ [body.withField "body"])

end LazyLint.Script
