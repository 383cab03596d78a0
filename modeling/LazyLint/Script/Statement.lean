import LazyLint.Script.Expression

/-!
# Statements

The grammar is purely syntactic: `return` may stand anywhere, an `import` or `export` in any block,
and a declaration need not be initialised. What a parse goal forbids is decided on the tree.
-/

namespace LazyLint.Script

open Cst (Node Head)

/-! ## Declarations -/

/-- The target of a declaration: a name or a destructuring pattern. -/
def bindingTarget (sub : Sub) : Parser Node := do
  match ← peek with
  | .mark "[" => asPattern (← arrayLiteral sub)
  | .mark "\x7b" => asPattern (← objectLiteral sub)
  | _ => name "identifier"

/-- A target and, perhaps, its value. -/
def declarator (sub : Sub) (membership : Bool) : Parser Node := do
  let start ← nextStart
  let target ← bindingTarget sub
  if ← mark? "=" then
    let value ← sub (.expression membership false)
    node "variable_declarator" start [target.withField "name", value.withField "value"]
  else node "variable_declarator" start [target.withField "name"]

/-- The declarators after the first one, the latest first. -/
def declaratorsLoop (sub : Sub) : Nat → List Node → Parser (List Node)
  | 0, acc => pure acc
  | fuel + 1, acc => do
    if ← mark? "," then declaratorsLoop sub fuel ((← declarator sub true) :: acc)
    else pure acc

/-- Whether the last declarator ends in an expression. -/
def endsInValue (ds : List Node) : Bool :=
  (ds.head?.map (·.children.length == 2)).getD false

/-- A declaration after its keyword. -/
def declarationRest (sub : Sub) (kind : String) (start : Cursor) : Parser Node := do
  let first ← declarator sub true
  let ds ← declaratorsLoop sub start.left [first]
  let n ← node kind start ds.reverse
  semicolon (endsInValue ds)
  let c ← Parser.here
  pure (.mk { n.head with stop := c.tokenEnd } n.children)

/-- Whether the word `let` here opens a declaration and is not a name. -/
def opensLet (c : Cursor) : Bool :=
  let after := (c.skip 3).close
  match after.trivia.lead with
  | .word w => w != "in" && w != "instanceof" && (w == "let" || ! isReserved w) &&
      ! mayOmitLoop true (after.left + 1) after
  | .mark "[" | .mark "\x7b" => true
  | _ => false

/-- Whether the word `using` here opens a declaration. -/
def opensUsing (c : Cursor) : Bool :=
  let after := (c.skip 5).close
  match after.trivia.lead with
  | .word w => ! isReserved w && w != "of" && ! mayOmitLoop true (after.left + 1) after
  | _ => false

/-- Whether the words `await using` here open a declaration. -/
def opensAwaitUsing (c : Cursor) : Bool :=
  let second := (c.skip 5).trivia
  second.lead == .word "using" && opensUsing second

/-- A declaration, if one starts here. -/
def declaration? (sub : Sub) : Parser (Option Node) := do
  let start ← nextStart
  match start.lead with
  | .word "var" => word "var"; return some (← declarationRest sub "variable_declaration" start)
  | .word "const" => word "const"; return some (← declarationRest sub "lexical_declaration" start)
  | .word "let" =>
    if opensLet start then
      word "let"
      return some (← declarationRest sub "lexical_declaration" start)
    else return none
  | .word "using" =>
    if opensUsing start then
      word "using"
      return some (← declarationRest sub "using_declaration" start)
    else return none
  | .word "await" =>
    if opensAwaitUsing start then
      word "await"
      word "using"
      return some (← declarationRest sub "using_declaration" start)
    else return none
  | .word "function" => declared start (fun d => d.close)
  | .word "async" =>
    let second := (start.skip 5).trivia
    if second.lead == .word "function" then declared start (fun d => (d.skip 5).close)
    else return none
  | .word "class" =>
    let after := (start.skip 5).trivia
    match after.lead with
    | .word w =>
      if isReserved w then return none else return some (← classFrom sub true start [])
    | _ => return none
  | .mark "@" =>
    let notes ← decorators sub
    let c ← nextStart
    let after := (c.skip 5).trivia
    match c.lead, after.lead with
    | .word "class", .word w =>
      if isReserved w then Parser.goto start; return none
      else return some (← classFrom sub true start notes)
    -- in front of anything else the decorators are left to the expressions
    | _, _ => Parser.goto start; return none
  | _ => return none
where
  /-- A function with a name is a declaration; without one it is left to the expressions. -/
  declared (start : Cursor) (skipAsync : Cursor → Cursor) : Parser (Option Node) := do
    let afterWord := ((skipAsync start).trivia.skip 8).trivia
    let nameAt :=
      match afterWord.lead with
      | .mark "*" => afterWord.advance.trivia
      | _ => afterWord
    match nameAt.lead with
    | .word w =>
      if isReserved w then return none
      else
        Parser.goto (skipAsync start)
        return some (← functionFrom sub true start)
    | _ => return none

/-! ## Modules -/

/-- The name of an import or export: a name, a string, or the word `default`, which leaves no
node. -/
def moduleName : Parser (List Node) := do
  match ← peek with
  | .quote _ => return [← stringLiteral]
  | .word "default" => word "default"; return []
  | _ => return [← name "identifier"]

/-- The specifier of an export: a name and, perhaps, an alias. -/
def exportSpecifier : Parser Node := do
  let start ← nextStart
  let first ← moduleName
  if ← word? "as" then
    let second ← moduleName
    node "export_specifier" start (first ++ second)
  else node "export_specifier" start first

/-- The specifier of an import: a name that is bound, or the exported name of what is bound under
another one. -/
def importSpecifier : Parser Node := do
  let start ← nextStart
  let first ← moduleName
  if ← word? "as" then
    let second ← name "identifier"
    node "import_specifier" start (first ++ [second])
  else
    match first with
    | [n] => if n.kind == "identifier" then node "import_specifier" start first else unexpected
    | _ => unexpected

/-- Specifiers up to the closing brace, the latest first. -/
def specifiersLoop (item : Parser Node) : Nat → List Node → Parser (List Node)
  | 0, _ => unexpected
  | fuel + 1, acc => do
    if ← mark? "\x7d" then pure acc
    else
      let s ← item
      if ← mark? "\x7d" then pure (s :: acc)
      else
        mark ","
        specifiersLoop item fuel (s :: acc)

/-- Specifiers in braces. -/
def specifiers (kind : String) (item : Parser Node) : Parser Node := do
  let start ← nextStart
  mark "\x7b"
  let items ← specifiersLoop item (start.left + 1) []
  node kind start items.reverse

/-- The module that a clause comes from. -/
def fromClause : Parser Node := do
  word "from"
  return (← stringLiteral).withField "source"

/-- An import of the whole module under one name. -/
def namespaceImport : Parser Node := do
  let start ← nextStart
  mark "*"
  word "as"
  let n ← name "identifier"
  node "namespace_import" start [n]

/-- What an import binds. -/
def importClause : Parser Node := do
  let start ← nextStart
  match start.lead with
  | .mark "*" => node "import_clause" start [← namespaceImport]
  | .mark "\x7b" => node "import_clause" start [← specifiers "named_imports" importSpecifier]
  | _ =>
    let n ← name "identifier"
    if ← mark? "," then
      match ← peek with
      | .mark "*" => node "import_clause" start [n, ← namespaceImport]
      | _ => node "import_clause" start [n, ← specifiers "named_imports" importSpecifier]
    else node "import_clause" start [n]

/-- The attributes of an import, if it has any. -/
def importAttributes (sub : Sub) : Parser (List Node) := do
  let start ← nextStart
  if start.lead == .word "with" then
    word "with"
    let o ← objectLiteral sub
    return [← node "import_attribute" start [o]]
  else return []

def importStatement (sub : Sub) : Parser Node := do
  let start ← nextStart
  word "import"
  let parts ←
    match ← peek with
    | .quote _ => do pure [(← stringLiteral).withField "source"]
    | _ => do
      let clause ← importClause
      pure [clause, ← fromClause]
  let extra ← if ← mayEnd false then pure [] else importAttributes sub
  semicolon false
  node "import_statement" start (parts ++ extra)

/-- What follows `export *`. -/
def exportAllRest : Parser (List Node) := do
  let start ← nextStart
  mark "*"
  if ← word? "as" then
    let n ← moduleName
    let ns ← node "namespace_export" start n
    return [ns, ← fromClause]
  else return [← fromClause]

/-- What follows `export default`. -/
def exportDefaultRest (sub : Sub) : Parser Node := do
  word "default"
  match ← declaration? sub with
  | some d => pure (d.withField "declaration")
  | none =>
    let e ← sub (.expression true false)
    semicolon true
    pure (e.withField "value")

/-- An export after its decorators. -/
def exportRest (sub : Sub) (start : Cursor) (notes : List Node) : Parser Node := do
  word "export"
  match ← peek with
  | .mark "*" =>
    let parts ← exportAllRest
    semicolon false
    node "export_statement" start (notes ++ parts)
  | .mark "\x7b" =>
    let clause ← specifiers "export_clause" exportSpecifier
    let source ←
      match ← peek with
      | .word "from" => if ← mayEnd false then pure [] else pure [← fromClause]
      | _ => pure []
    semicolon false
    node "export_statement" start (notes ++ [clause] ++ source)
  | .word "default" =>
    let d ← exportDefaultRest sub
    node "export_statement" start (notes ++ [d])
  | _ =>
    match ← declaration? sub with
    | some d => node "export_statement" start (notes ++ [d.withField "declaration"])
    | none => unexpected

/-! ## Loops -/

/-- Whether the word `of` follows a word of `n` characters. In the head of a loop it is no name then. -/
def ofFollows (c : Cursor) (n : Nat) : Bool :=
  (c.skip n).trivia.lead == .word "of"

/-- Whether the word `let` opens a declaration in the head of a loop. -/
def opensLetInHead (c : Cursor) : Bool :=
  opensLet c && ! ofFollows c 3

/-- The rest of a loop over members or elements, after its target. -/
def eachRest (sub : Sub) (start : Cursor) (target : List Node) : Parser Node := do
  if ← word? "in" then pure () else word "of"
  let right ← expressions sub
  mark ")"
  let body ← sub .statement
  node "for_in_statement" start (target ++ [right, body.withField "body"])

/-- The head and body of a loop over members or elements, with a declared target. -/
def eachDeclared (sub : Sub) (start : Cursor) (keyword : String) : Parser Node := do
  word keyword
  let target ← bindingTarget sub
  let value ←
    if keyword == "var" then
      if ← mark? "=" then do pure [← sub (.expression false false)] else pure []
    else pure []
  eachRest sub start (target :: value)

/-- The head and body of a loop over members or elements, with an assigned target. -/
def eachAssigned (sub : Sub) (start : Cursor) : Parser Node := do
  let base ← primary sub
  let c ← Parser.here
  let n ← applied sub true c.left base
  let target ← if n.kind == "parenthesized_expression" then pure n else asPattern n
  eachRest sub start [target]

/-- An optional expression before a mark; without it an empty statement stands for it. -/
def conditionSlot (sub : Sub) : Parser Node := do
  let start ← nextStart
  if ← mark? ";" then node "empty_statement" start []
  else
    let e ← expressions sub
    mark ";"
    pure e

/-- The first slot of a counting loop. -/
def initialSlot (sub : Sub) : Parser Node := do
  let start ← nextStart
  match start.lead with
  | .word "var" => declared "var" "variable_declaration" start
  | .word "const" => declared "const" "lexical_declaration" start
  | .word "let" =>
    if opensLetInHead start then declared "let" "lexical_declaration" start else conditionSlot sub
  | _ => conditionSlot sub
where
  /-- A declaration in the first slot. -/
  declared (keyword kind : String) (start : Cursor) : Parser Node := do
    word keyword
    let first ← declarator sub true
    let ds ← declaratorsLoop sub start.left [first]
    mark ";"
    node kind start ds.reverse

/-- A counting loop after its parenthesis. -/
def countingRest (sub : Sub) (start : Cursor) : Parser Node := do
  let first ← initialSlot sub
  let condition ← conditionSlot sub
  let step ←
    match ← peekBefore with
    | .mark ")" => do
      Parser.goto (← nextStart)
      pure []
    | _ => pure [← expressions sub]
  mark ")"
  let body ← sub .statement
  node "for_statement" start ([first, condition] ++ step ++ [body.withField "body"])

def forStatement (sub : Sub) : Parser Node := do
  let start ← nextStart
  word "for"
  let _ ← word? "await"
  mark "("
  let inside ← nextStart
  let each : Parser Node :=
    match inside.lead with
    | .word "var" => eachDeclared sub start "var"
    | .word "const" => eachDeclared sub start "const"
    | .word "let" =>
      if opensLetInHead inside then eachDeclared sub start "let" else eachAssigned sub start
    | .word "using" =>
      if opensUsing inside then eachDeclared sub start "using" else eachAssigned sub start
    | .word "await" =>
      if opensAwaitUsing inside then do
        word "await"
        eachDeclared sub start "using"
      else eachAssigned sub start
    | _ => eachAssigned sub start
  -- `async` before `of` is a target, not the start of an arrow function
  if inside.lead == .word "async" && ofFollows inside 5 then do
    let target ← name "identifier"
    eachRest sub start [target]
  else Parser.orElse each (countingRest sub start)

/-! ## Other statements -/

def expressionStatement (sub : Sub) : Parser Node := do
  let start ← nextStart
  let e ← expressions sub
  semicolon true
  node "expression_statement" start [e]

/-- Whether what comes next goes on with an expression and opens no statement. -/
def continuesOperand : Lead → Bool
  | .word w => w == "in" || w == "instanceof"
  | .mark m => [".", "?.", "?", "=", "==", "!=", "===", "!==", "<=", ">", ">=", "&&", "||", "??", "&",
      "|", "^", "<<", ">>", ">>>", "*", "%", "**", ","].contains m
  | _ => false

/-- Whether braces that read as a block are an object if they read as one, too: the block would open
with a label, or it is empty and an operator follows it. -/
def prefersObject (block : Node) (after : Cursor) : Bool :=
  match block.children with
  | [] => continuesOperand after.trivia.lead
  | first :: _ => first.kind == "labeled_statement"

/-- Braces at the start of a statement: a block, unless they only read as an object, or prefer to. -/
def braces (sub : Sub) : Parser Node :=
  blockOr sub (expressionStatement sub) prefersObject

def ifStatement (sub : Sub) : Parser Node := do
  let start ← nextStart
  word "if"
  let condition ← parenthesized sub
  let yes ← sub .statement
  let beforeElse ← nextStart
  if beforeElse.lead == .word "else" then
    word "else"
    let no ← sub .statement
    let alternative ← node "else_clause" beforeElse [no]
    node "if_statement" start [condition, yes, alternative]
  else node "if_statement" start [condition, yes]

/-- The statements of a case, the latest first. -/
def caseLoop (sub : Sub) : Nat → List Node → Parser (List Node)
  | 0, _ => unexpected
  | fuel + 1, acc => do
    match ← peekBefore with
    | .done | .mark "\x7d" | .word "case" | .word "default" => pure acc
    | _ => caseLoop sub fuel ((← sub .statement) :: acc)

/-- The cases of a switch, the latest first. -/
def casesLoop (sub : Sub) : Nat → List Node → Parser (List Node)
  | 0, _ => unexpected
  | fuel + 1, acc => do
    let start ← nextStart
    match start.lead with
    | .word "case" =>
      word "case"
      let value ← expressions sub
      mark ":"
      let body ← caseLoop sub start.left []
      casesLoop sub fuel ((← node "switch_case" start (value :: body.reverse)) :: acc)
    | .word "default" =>
      word "default"
      mark ":"
      let body ← caseLoop sub start.left []
      casesLoop sub fuel ((← node "switch_default" start body.reverse) :: acc)
    | _ =>
      mark "\x7d"
      pure acc

def switchStatement (sub : Sub) : Parser Node := do
  let start ← nextStart
  word "switch"
  let value ← parenthesized sub
  let bodyStart ← nextStart
  mark "\x7b"
  let cases ← casesLoop sub (start.left + 1) []
  let body ← node "switch_body" bodyStart cases.reverse
  node "switch_statement" start [value, body]

/-- A keyword, a condition in parentheses and a statement. -/
def guarded (sub : Sub) (keyword kind : String) : Parser Node := do
  let start ← nextStart
  word keyword
  let condition ← parenthesized sub
  let body ← sub .statement
  node kind start [condition, body]

/-- A loop that tests its condition at the end; its semicolon may always be omitted. -/
def doStatement (sub : Sub) : Parser Node := do
  let start ← nextStart
  word "do"
  let body ← sub .statement
  Parser.goto (← nextStart)
  word "while"
  let condition ← parenthesized sub
  let _ ← if ← mayEnd false then pure true else mark? ";"
  node "do_statement" start [body, condition]

/-- A guarded block with its handlers. -/
def tryStatement (sub : Sub) : Parser Node := do
  let start ← nextStart
  word "try"
  let body ← block sub
  let atCatch ← nextStart
  let handler ←
    if atCatch.lead == .word "catch" then do
      word "catch"
      let parameter ←
        if ← mark? "(" then do
          let p ← bindingTarget sub
          mark ")"
          pure [p]
        else pure []
      let inner ← block sub
      pure [← node "catch_clause" atCatch (parameter ++ [inner.withField "body"])]
    else pure []
  let atFinally ← nextStart
  let finalizer ←
    if atFinally.lead == .word "finally" then do
      word "finally"
      let inner ← block sub
      pure [← node "finally_clause" atFinally [inner.withField "body"]]
    else pure []
  node "try_statement" start ([body] ++ handler ++ finalizer)

/-- A jump, with a label if one stands in its line. -/
def jumpStatement (keyword kind : String) : Parser Node := do
  let start ← nextStart
  word keyword
  let label ←
    if ← mayEnd false then pure []
    else
      match ← peek with
      | .word _ => pure [← name "statement_identifier"]
      | _ => pure []
  semicolon false
  node kind start label

/-- A return, with a value if one stands in its line. -/
def returnStatement (sub : Sub) : Parser Node := do
  let start ← nextStart
  word "return"
  if ← mayEnd false then node "return_statement" start []
  else
    match ← peek with
    | .mark ";" =>
      mark ";"
      node "return_statement" start []
    | _ =>
      let e ← expressions sub
      semicolon true
      node "return_statement" start [e]

def throwStatement (sub : Sub) : Parser Node := do
  let start ← nextStart
  word "throw"
  let e ← expressions sub
  semicolon true
  node "throw_statement" start [e]

/-- A statement with a label before it. -/
def labeledStatement (sub : Sub) : Parser Node := do
  let start ← nextStart
  let label ← name "statement_identifier"
  mark ":"
  let body ← sub .statement
  node "labeled_statement" start [label, body]

/-- Whether a colon follows the word here. -/
def isLabel (c : Cursor) (w : String) : Bool :=
  ! isReserved w && ((c.skip w.length).trivia.lead == .mark ":")

def declarationOrExpression (sub : Sub) : Parser Node := do
  match ← declaration? sub with
  | some d => pure d
  | none => expressionStatement sub

def wordStatement (sub : Sub) (start : Cursor) (w : String) : Parser Node :=
  match w with
  | "import" =>
    match (start.skip 6).trivia.lead with
    | .mark "(" | .mark "." => expressionStatement sub
    | _ => importStatement sub
  | "export" => exportRest sub start []
  | "if" => ifStatement sub
  | "switch" => switchStatement sub
  | "for" => forStatement sub
  | "while" => guarded sub "while" "while_statement"
  | "with" => guarded sub "with" "with_statement"
  | "do" => doStatement sub
  | "try" => tryStatement sub
  | "break" => jumpStatement "break" "break_statement"
  | "continue" => jumpStatement "continue" "continue_statement"
  | "return" => returnStatement sub
  | "throw" => throwStatement sub
  | "debugger" => do
    word "debugger"
    semicolon false
    node "debugger_statement" start []
  | _ => if isLabel start w then labeledStatement sub else declarationOrExpression sub

def statement (sub : Sub) : Parser Node := do
  let start ← nextStart
  match start.lead with
  | .mark "\x7b" => braces sub
  | .mark ";" =>
    mark ";"
    node "empty_statement" start []
  | .mark "@" =>
    let notes ← decorators sub
    let c ← nextStart
    if c.lead == .word "export" then exportRest sub start notes
    else
      Parser.goto start
      declarationOrExpression sub
  | .word w => wordStatement sub start w
  | _ => expressionStatement sub

end LazyLint.Script
