import LazyLint.Script.Markup
import LazyLint.Script.Member

/-!
# Operands

An operand is a primary expression with the member accesses and calls applied to it, possibly
assigned to, or a prefix operator with its operand. Arrow functions, assignments and `yield` are
operands too: they reach as far to the right as an expression can.
-/

namespace LazyLint.Script

open Cst (Node Head)

/-! ## Arrow functions -/

/-- The body of an arrow function. In braces it is a block, unless it only reads as an object, or
reads as an object where the block would open with a label. -/
def arrowBody (sub : Sub) : Parser Node := do
  match ← peekBefore with
  | .mark "\x7b" =>
    blockOr sub (sub (.expression true false)) fun b _ =>
      (b.children.head?.map (·.kind == "labeled_statement")).getD false
  | _ => sub (.expression true false)

/-- An arrow function after its parameters. -/
def arrowRest (sub : Sub) (start : Cursor) (parameters : Node) : Parser Node := do
  mark "=>"
  let body ← arrowBody sub
  node "arrow_function" start [parameters, body.withField "body"]

/-- An arrow function of the elements in the parentheses just read. -/
def arrowOfElements (sub : Sub) (start opening : Cursor) (elements : List Node) : Parser Node := do
  let closed ← Parser.here
  match toElements elements with
  | none => unexpected
  | some ps =>
    let params := Node.mk
      { kind := "formal_parameters", start := opening.offset, stop := closed.tokenEnd,
        row := opening.row, field := some "parameters" } ps
    Parser.goto { closed with cover := none }
    arrowRest sub start params

/-- The elements in parentheses, the latest first, and whether a comma ends them. -/
def groupLoop (sub : Sub) : Nat → List Node → Parser (List Node × Bool)
  | 0, _ => unexpected
  | fuel + 1, acc => do
    if ← mark? ")" then pure (acc, ! acc.isEmpty)
    else
      let e ← listElement sub true
      if ← mark? ")" then pure (e :: acc, false)
      else
        mark ","
        groupLoop sub fuel (e :: acc)

/-- Parentheses: the parameters of an arrow function, or an expression. -/
def group (sub : Sub) : Parser Node := do
  let start ← nextStart
  mark "("
  let (elements, comma) ← groupLoop sub (start.left + 1) []
  let closed ← Parser.here
  match ← peek with
  | .mark "=>" => arrowOfElements sub start start elements.reverse
  | _ =>
    match closed.cover, elements, elements.getLast? with
    | some e, _, _ => Parser.stop e
    | none, last :: before, some first =>
      if comma then unexpected
      else
        match elements.find? (·.kind == "spread_element") with
        | some spread => refuse spread
        | none =>
          let inner :=
            if before.isEmpty then last
            else spanning "sequence_expression" first last elements.reverse
          node "parenthesized_expression" start [inner]
    | none, _, _ => unexpected

/-! ## Primary expressions -/

/-- A leaf made of the word here, which may turn out to be the parameter of an arrow function. -/
def nameOrArrow (sub : Sub) (kind : String) : Parser Node := do
  let start ← nextStart
  let n ← anyWord kind
  match ← peek with
  | .mark "=>" =>
    if kind == "identifier" then arrowRest sub start (n.withField "parameter") else pure n
  | _ => pure n

/-- What starts with the word `async`. -/
def asyncForms (sub : Sub) : Parser Node := do
  let start ← nextStart
  let after := (start.skip 5).close
  match after.trivia.lead with
  | .word "function" =>
    Parser.goto after
    functionFrom sub false start
  | .word w =>
    let second := after.trivia
    if ! isReserved w && ((second.skip w.length).trivia.lead == .mark "=>") then
      Parser.goto after
      let n ← name "identifier"
      arrowRest sub start (n.withField "parameter")
    else nameOrArrow sub "identifier"
  | .mark "(" =>
    -- a call of something named `async`, unless an arrow makes parameters of the arguments
    Parser.goto { after with cover := none }
    let opening ← nextStart
    let elements ← slots sub true "(" ")"
    let closed ← Parser.here
    match ← peek with
    | .mark "=>" =>
      let n ← arrowOfElements sub start opening elements
      let c ← Parser.here
      Parser.goto { c with cover := start.cover }
      pure n
    | _ =>
      match closed.cover with
      | some e => Parser.stop e
      | none =>
        let args := Node.mk
          { kind := "arguments", start := opening.offset, stop := closed.tokenEnd,
            row := opening.row, field := some "arguments" } elements
        let callee := Node.mk
          { kind := "identifier", start := start.offset, stop := after.offset, row := start.row,
            field := some "function" } []
        Parser.goto { closed with cover := start.cover }
        node "call_expression" start [callee, args]
  | _ => nameOrArrow sub "identifier"

/-- What starts with the word `import` in an expression: a call or a property. -/
def importForms : Parser Node := do
  let start ← nextStart
  let n ← anyWord "import"
  match ← peek with
  | .mark "(" => pure n
  | .mark "." =>
    mark "."
    if ← word? "meta" then node "meta_property" start []
    else
      let p ← anyWord "property_identifier"
      node "member_expression" start [n, p]
  | _ => unexpected

/-- Words that are expressions of their own kind. -/
def literalWords : List String :=
  ["this", "super", "null", "true", "false"]

/-- What starts with a word. -/
def primaryWord (sub : Sub) (w : String) : Parser Node := do
  if w == "function" then functionFrom sub false (← nextStart)
  else if w == "async" then asyncForms sub
  else if w == "class" then classFrom sub false (← nextStart) []
  else if w == "import" then importForms
  else if literalWords.contains w then anyWord w
  else if w == "undefined" then anyWord "undefined"
  else if isReserved w && w != "export" then unexpected
  else nameOrArrow sub "identifier"

def primary (sub : Sub) : Parser Node := do
  match ← peekBefore with
  | .word w =>
    Parser.goto (← nextStart)
    primaryWord sub w
  | .quote _ => stringLiteral
  | .digit =>
    Parser.goto (← nextStart)
    number
  | .mark "(" => group sub
  | .mark "[" => arrayLiteral sub
  | .mark "\x7b" => objectLiteral sub
  | .mark "`" => template sub
  | .mark "/" | .mark "/=" => regex
  | .mark "<" => element sub
  | .mark "#" => privateName
  | .mark "@" =>
    let start ← nextStart
    let notes ← decorators sub
    classFrom sub false start notes
  | _ =>
    Parser.goto (← nextStart)
    unexpected

/-! ## Member accesses and calls -/

def memberName : Parser Node := do
  match ← peek with
  | .mark "#" => privateName
  | _ => anyWord "property_identifier"

/-- A subscript after the object and, perhaps, its optional chain. -/
def subscriptRest (sub : Sub) (object : Node) (chain : List Node) : Parser Node := do
  mark "["
  let index ← expressions sub
  mark "]"
  nodeFrom "subscript_expression" object ([object] ++ chain ++ [index])

/-- A call after the callee and, perhaps, its optional chain. -/
def callRest (sub : Sub) (callee : Node) (chain : List Node) : Parser Node := do
  let args ← arguments sub
  nodeFrom "call_expression" callee
    ([callee.withField "function"] ++ chain ++ [args.withField "arguments"])

/-- What follows an optional chain. -/
def chainRest (sub : Sub) (object : Node) : Parser Node := do
  let start ← nextStart
  mark "?."
  let chain ← node "optional_chain" start []
  match ← peek with
  | .mark "(" => callRest sub object [chain]
  | .mark "[" => subscriptRest sub object [chain]
  | _ =>
    let p ← memberName
    nodeFrom "member_expression" object [object, chain, p]

/-- Apply the member accesses, templates and, where `calls` are wanted, calls that follow. -/
def applied (sub : Sub) (calls : Bool) : Nat → Node → Parser Node
  | 0, n => pure n
  | fuel + 1, n => do
    match ← peek with
    | .mark "." =>
      mark "."
      let p ← memberName
      applied sub calls fuel (← nodeFrom "member_expression" n [n, p])
    | .mark "?." => applied sub calls fuel (← chainRest sub n)
    | .mark "[" => applied sub calls fuel (← subscriptRest sub n [])
    | .mark "`" =>
      let t ← template sub
      applied sub calls fuel
        (← nodeFrom "call_expression" n [n.withField "function", t.withField "arguments"])
    | .mark "(" => if calls then applied sub calls fuel (← callRest sub n []) else pure n
    | .mark "++" | .mark "--" =>
      -- after a line end the mark belongs to what follows
      if ! calls || (← mayEnd true) then pure n
      else
        take 2
        applied sub calls fuel (← nodeFrom "update_expression" n [n])
    | _ => pure n

/-- An expression that starts with `new`. -/
def construct (sub : Sub) : Parser Node := do
  let start ← nextStart
  word "new"
  if ← mark? "." then
    word "target"
    node "meta_property" start []
  else
    let base ←
      match ← peekBefore with
      | .word "new" => sub .construct
      | _ => do
        let n ← primary sub
        -- `import` is no callee of its own, its call is
        if n.kind == "import" then callRest sub n [] else pure n
    let c ← Parser.here
    let callee ← applied sub false c.left base
    match ← peek with
    | .mark "(" =>
      let args ← arguments sub
      node "new_expression" start
        [callee.withField "constructor", args.withField "arguments"]
    | _ => node "new_expression" start [callee.withField "constructor"]

/-! ## Assignments -/

/-- The operators that assign the result of another operator. -/
def augmentedOperators : List String :=
  ["+=", "-=", "*=", "/=", "%=", "^=", "&=", "|=", ">>=", ">>>=", "<<=", "**=", "&&=", "||=", "??="]

/-- Kinds that an augmented assignment may assign to. -/
def isAugmentedTarget (kind : String) : Bool :=
  ["identifier", "member_expression", "subscript_expression", "parenthesized_expression"].contains kind

/-- The assignment to an operand, if one follows. -/
def assigned (sub : Sub) (left : Node) : Parser Node := do
  match ← peek with
  | .mark "=" =>
    let target? :=
      if left.kind == "parenthesized_expression" then some left else toPattern left
    match target? with
    | none => pure left
    | some target =>
      mark "="
      let c ← Parser.here
      -- the target has claimed what was pending in it
      Parser.goto { c with cover := none }
      let right ← sub (.expression true false)
      nodeFrom "assignment_expression" left [target, right]
  | .mark m =>
    if augmentedOperators.contains m && isAugmentedTarget left.kind then
      take m.length
      let right ← sub (.expression true false)
      nodeFrom "augmented_assignment_expression" left [left, right]
    else pure left
  | _ => pure left

/-! ## Operands -/

/-- Whether an operand can start so. -/
def startsOperand : Lead → Bool
  | .word w => ! (["in", "instanceof", "of"].contains w) && (! isReserved w ||
      literalWords.contains w ||
      ["function", "class", "import", "new", "typeof", "void", "delete"].contains w)
  | .quote _ | .digit => true
  | .mark m => ["(", "[", "\x7b", "`", "/", "/=", "<", "#", "@", "+", "-", "++", "--", "!", "~"].contains m
  | _ => false

/-- A prefix operator of `n` characters and its operand. -/
def prefixed (sub : Sub) (kind : String) (n : Nat) : Parser Node := do
  let start ← nextStart
  take n
  let operand ← sub .operand
  node kind start [operand]

/-- What starts with the word `yield`: it takes an expression if one follows in the line. -/
def yielded (sub : Sub) : Parser Node := do
  let start ← nextStart
  word "yield"
  if ← mark? "*" then
    let e ← sub (.expression true false)
    node "yield_expression" start [e]
  else
    let next ← peek
    if startsOperand next && ! (← mayEnd false) then
      let e ← sub (.expression true false)
      node "yield_expression" start [e]
    else node "yield_expression" start []

/-- A primary expression with what is applied and assigned to it. -/
def appliedOperand (sub : Sub) (base : Parser Node) : Parser Node := do
  let n ← base
  let c ← Parser.here
  let m ← applied sub true c.left n
  if m.kind == "import" then unexpected else assigned sub m

def operand (sub : Sub) : Parser Node := do
  let start ← nextStart
  match start.lead with
  | .mark "!" | .mark "~" | .mark "+" | .mark "-" => prefixed sub "unary_expression" 1
  | .mark "++" | .mark "--" => prefixed sub "update_expression" 2
  | .word "typeof" | .word "delete" => prefixed sub "unary_expression" 6
  | .word "void" => prefixed sub "unary_expression" 4
  | .word "yield" => yielded sub
  | .word "new" => appliedOperand sub (construct sub)
  | .word "await" =>
    let after := (start.skip 5).close
    if startsOperand after.trivia.lead && start.awaitName != some start.offset &&
        ! mayOmitLoop true (after.left + 1) after then prefixed sub "await_expression" 5
    else appliedOperand sub (nameOrArrow sub "identifier")
  | _ => appliedOperand sub (primary sub)

end LazyLint.Script
