import LazyLint.Ast.Node
import LazyLint.Cst.Escape
import LazyLint.Cst.Goal
import LazyLint.Text.Utf8

/-!
# Lowering

A concrete tree becomes a lowered one: comments go, the constructs that the import rule looks at get
variants of their own, and everything else becomes a plain node. A method definition becomes a plain
node whose last child is a function without a name: its key and decorators are evaluated with the
class, only its value is a function.
-/

namespace LazyLint.Cst

/-- Nodes that leave no trace in the lowered tree. -/
def isSkipped (kind : String) : Bool :=
  kind = "comment" || kind = "hash_bang_line"

/-! ## String literals -/

/-- The pieces of a string literal from a byte on: the text before each escape as it stands, and
the value of the escape. -/
def stringPieces (src : List UInt8) (stop : Int) : Nat → List Node → Except Escape.Fault Text
  | pos, [] => .ok (Utf8.text src pos stop)
  | pos, n :: ns =>
    if n.named && n.kind = "escape_sequence" then do
      let before := Utf8.text src pos n.start
      let value ← Escape.decode (Utf8.text src n.start n.stop)
      return before ++ value ++ (← stringPieces src stop n.stop ns)
    else stringPieces src stop pos ns

/-- The value of a string literal: the text between its quotes, escapes decoded. -/
def stringValue (src : List UInt8) (n : Node) : Except Escape.Fault Text :=
  stringPieces src ((n.stop : Int) - 1) (n.start + 1) n.children

/-! ## Trees -/

/-- The spans of the nodes that fill the given fields. -/
def fieldSpans (fields : List String) (cs : List Node) : List (Nat × Nat) :=
  fields.filterMap fun f =>
    (cs.find? (·.head.field == some f)).map fun c => (c.start, c.stop)

mutual

/-- The lowered tree of a concrete one. -/
def lower (src : List UInt8) : Node → Except Escape.Fault Ast.Node
  | .mk h cs =>
    if h.kind = "program" then do
      return .program (.items (← lowerNamed src cs))
    else if h.kind = "string" then do
      return .string (← stringValue src (.mk h cs))
    else if h.kind = "identifier" then
      return .ident (Utf8.text src h.start h.stop)
    else if h.kind = "import" then
      return .importOp
    else if h.kind = "import_statement" then do
      let source ← lowerField src "source" cs
      let clause ← lowerClause src cs
      return .importDecl (source.getD .absent) (clause.getD .absent)
    else if h.kind = "call_expression" then do
      match ← lowerField src "function" cs with
      | some callee => return .call callee (.items (← lowerArguments src cs))
      | none => return .plain h.kind (.items (← lowerNamed src cs))
    else if h.kind ∈ Ast.functionKinds then do
      let name ← lowerField src "name" cs
      let params ← lowerParameters src true cs
      let body ← lowerField src "body" cs
      return .function h.kind (name.getD .absent) (.items params) (body.getD .absent)
    else if h.kind = "method_definition" then do
      -- the key is evaluated with the class: it stands beside the function, not in it
      let key ← lowerOutside src (fieldSpans ["parameters", "body"] cs) cs
      let params ← lowerParameters src false cs
      let body ← lowerField src "body" cs
      let value := .function "function_expression" .absent (.items params) (body.getD .absent)
      return .plain h.kind (.items (key ++ [value]))
    else do
      return .plain h.kind (.items (← lowerNamed src cs))

/-- The named nodes, comments left out. -/
def lowerNamed (src : List UInt8) : List Node → Except Escape.Fault (List Ast.Node)
  | [] => .ok []
  | n :: ns =>
    if n.named && ! isSkipped n.kind then do
      let first ← lower src n
      return first :: (← lowerNamed src ns)
    else lowerNamed src ns

/-- The first node that fills a field. -/
def lowerField (src : List UInt8) (field : String) :
    List Node → Except Escape.Fault (Option Ast.Node)
  | [] => .ok none
  | n :: ns =>
    if n.head.field = some field then do return some (← lower src n)
    else lowerField src field ns

/-- The first named import clause. -/
def lowerClause (src : List UInt8) : List Node → Except Escape.Fault (Option Ast.Node)
  | [] => .ok none
  | n :: ns =>
    if n.named && n.kind = "import_clause" then do return some (← lower src n)
    else lowerClause src ns

/-- The arguments of a call: those of an argument list, or the template that a tag is applied to. -/
def lowerArguments (src : List UInt8) : List Node → Except Escape.Fault (List Ast.Node)
  | [] => .ok []
  | .mk h cs :: ns =>
    if h.field = some "arguments" then
      if h.kind = "arguments" then lowerNamed src cs
      else do return [← lower src (.mk h cs)]
    else lowerArguments src ns

/-- The parameters of a function; where there is no list of them, the lone parameter if `lone` asks
for it. -/
def lowerParameters (src : List UInt8) (lone : Bool) :
    List Node → Except Escape.Fault (List Ast.Node)
  | [] => .ok []
  | .mk h cs :: ns =>
    if h.field = some "parameters" then lowerNamed src cs
    else if lone && h.field = some "parameter" && ! ns.any (·.head.field = some "parameters") then do
      return [← lower src (.mk h cs)]
    else lowerParameters src lone ns

/-- The named nodes whose spans are not among the given ones, comments left out. -/
def lowerOutside (src : List UInt8) (spans : List (Nat × Nat)) :
    List Node → Except Escape.Fault (List Ast.Node)
  | [] => .ok []
  | n :: ns =>
    if n.named && ! isSkipped n.kind && ! spans.contains (n.start, n.stop) then do
      let first ← lower src n
      return first :: (← lowerOutside src spans ns)
    else lowerOutside src spans ns

end

end LazyLint.Cst
