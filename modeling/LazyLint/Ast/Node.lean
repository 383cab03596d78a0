import LazyLint.Text.Basic

/-!
# Lowered syntax trees

Lowering keeps apart only what the import rule looks at; every other construct is a plain node with
its kind and its children. A tree need not come from lowering: a field may hold any value, be it a
node, a tuple of values or neither, a node may have no schema, and its kind need not fit its variant. The
traversals accept any tree and say what is wrong with it.

How a node is traversed is decided by its kind alone, through `schema`.
-/

namespace LazyLint.Ast

/-- A node of a lowered tree, or a value that stands where a node could. -/
inductive Node where
  | program (body : Node)
  | string (value : Text)
  | ident (name : Text)
  /-- The callee of a dynamic import. -/
  | importOp
  | importDecl (source clause : Node)
  | call (callee args : Node)
  | function (kind : String) (name params body : Node)
  /-- Any other construct. -/
  | plain (kind : String) (children : Node)
  /-- A node of a type that no schema was written for; it may even lack a kind. -/
  | stray (type : String) (kind : Option String)
  /-- A tuple; any other collection counts as the tuple of what going through it gives. -/
  | items (values : List Node)
  /-- A value that is neither a node nor a collection. -/
  | atom (type : String) (truthy : Bool)

namespace Node

/-- What a field holds that is left empty. -/
abbrev absent : Node := .atom "NoneType" false

def isNode : Node → Bool
  | .items _ | .atom .. => false
  | _ => true

/-- The type of a value, as faults name it. -/
def typeName : Node → String
  | .program _ => "Program"
  | .string _ => "StringLiteral"
  | .ident _ => "Identifier"
  | .importOp => "ImportOperator"
  | .importDecl .. => "ImportDeclaration"
  | .call .. => "CallExpression"
  | .function .. => "FunctionNode"
  | .plain .. => "OpaqueNode"
  | .stray type _ => type
  | .items _ => "tuple"
  | .atom type _ => type

/-- The kind of a node, which strays may lack. -/
def kind? : Node → Option String
  | .program _ => some "program"
  | .string _ => some "string"
  | .ident _ => some "identifier"
  | .importOp => some "import"
  | .importDecl .. => some "import_statement"
  | .call .. => some "call_expression"
  | .function kind .. => some kind
  | .plain kind _ => some kind
  | .stray _ kind? => kind?
  | .items _ | .atom .. => none

def text? : Node → Option Text
  | .string v => some v
  | .ident n => some n
  | _ => none

end Node

/-! ## The schema -/

/-- Kinds of functions: entering one of these leaves the top level. -/
def functionKinds : List String :=
  ["function_declaration", "function", "function_expression", "generator_function_declaration",
   "generator_function", "arrow_function"]

/-- Whether a field holds one node or a list of nodes. -/
inductive Arity where
  | single
  | sequence
  deriving Repr, DecidableEq

/-- The fields of a kind, in the order in which they are traversed. -/
def schema (kind : String) : Option (List (String × Arity)) :=
  if kind = "program" then some [("body", .sequence)]
  else if kind = "import_statement" then some [("clause", .single), ("source", .single)]
  else if kind = "call_expression" then some [("callee", .single), ("arguments", .sequence)]
  else if kind = "string" || kind = "identifier" || kind = "import" then some []
  else if kind ∈ functionKinds then
    some [("name", .single), ("parameters", .sequence), ("body", .single)]
  else none

/-- What can be wrong with a tree, or with the depth of one. -/
inductive Fault where
  /-- A kind without a schema. -/
  | unsupported (kind : String)
  /-- A value without a kind where a node should be. -/
  | noKind (v : Node)
  /-- A field that should hold a list holds a value that cannot be gone through. -/
  | notSequence (v : Node)
  /-- The arguments of a call cannot be counted. -/
  | noLength (v : Node)
  /-- The arguments of a call have no first one. -/
  | notIndexed (v : Node)
  /-- The tree is nested deeper than can be walked. -/
  | tooDeep

def Fault.message : Fault → Text
  | .unsupported kind => "No traversal schema for node kind '" ++ Text.ofString kind ++ "'"
  | .noKind v => "'" ++ Text.ofString v.typeName ++ "' object has no attribute 'kind'"
  | .notSequence v => "'" ++ Text.ofString v.typeName ++ "' object is not iterable"
  | .noLength v => "object of type '" ++ Text.ofString v.typeName ++ "' has no len()"
  | .notIndexed v => "'" ++ Text.ofString v.typeName ++ "' object is not subscriptable"
  | .tooDeep => "maximum recursion depth exceeded"

/-- The fields of a node. Plain nodes have their children whatever their kind. -/
def Node.fields : Node → Except Fault (List (String × Arity))
  | .plain .. => .ok [("children", .sequence)]
  | n =>
    match n.kind? with
    | some kind =>
      match schema kind with
      | some fs => .ok fs
      | none => .error (.unsupported kind)
    | none => .error (.unsupported n.typeName)

/-- The value of a field; one that the variant does not own is empty. -/
def Node.held : Node → String → Node
  | .program body, "body" => body
  | .importDecl source _, "source" => source
  | .importDecl _ clause, "clause" => clause
  | .call callee _, "callee" => callee
  | .call _ args, "arguments" => args
  | .function _ name _ _, "name" => name
  | .function _ _ params _, "parameters" => params
  | .function _ _ _ body, "body" => body
  | .plain _ children, "children" => children
  | _, _ => .absent

/-- The nodes that a traversal finds in a field. -/
def Node.inField (n : Node) (field : String) : Arity → Except Fault (List Node)
  | .single => .ok ([n.held field].filter Node.isNode)
  | .sequence =>
    match n.held field with
    | .items values => .ok (values.filter Node.isNode)
    | .atom _ false => .ok []
    | v => .error (.notSequence v)

/-! ## Height -/

mutual

/-- The number of levels of nodes. -/
def Node.height : Node → Nat
  | .program body => body.height + 1
  | .importDecl source clause => max source.height clause.height + 1
  | .call callee args => max callee.height args.height + 1
  | .function _ name params body => max name.height (max params.height body.height) + 1
  | .plain _ children => children.height + 1
  | .string _ | .ident _ | .importOp | .stray .. => 1
  | .items values => heights values
  | .atom .. => 0

def heights : List Node → Nat
  | [] => 0
  | n :: ns => max n.height (heights ns)

end

/-! ## Rows -/

/-- A row of the flat form of a tree. -/
structure Row where
  level : Nat
  /-- The field of the parent; the root has none. -/
  field : Option String
  kind : String
  text : Option Text

/-- The rows of a tree of at most so many levels. -/
def rowsWithin : Nat → Nat → Option String → Node → Except Fault (List Row)
  | 0, _, _, _ => .ok []
  | levels + 1, level, field, n => do
    let own : Row := { level, field, kind := n.kind?.getD "", text := n.text? }
    let below ← (← n.fields).flatMapM fun (f, arity) => do
      (← n.inField f arity).flatMapM (rowsWithin levels (level + 1) (some f))
    pure (own :: below)

/-- The tree as rows in pre-order, fields in the order of the schema. -/
def Node.rows (n : Node) : Except Fault (List Row) :=
  rowsWithin n.height 0 none n

end LazyLint.Ast
