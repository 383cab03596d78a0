import LazyLint.Ast.Walk

/-!
# Dumping a tree

A dump shows a line for every node that a walk would visit: indentation by level, the field the node
hangs from, a label, and the depth of function scopes. It stops at a number of nodes and then says
so.
-/

namespace LazyLint.Ast

/-- How a dump looks. -/
structure DumpOptions where
  maxNodes : Int := 10000
  indent : Text := Text.ofString "  "
  showDepth : Bool := true
  /-- Longer texts of string nodes are cut; a negative limit counts from the end. -/
  textLimit : Int := 60

/-- The text up to a limit; a negative limit counts from the end. -/
def cut (t : Text) (limit : Int) : Text :=
  if limit < 0 then t.take (t.length + limit).toNat else t.take limit.toNat

/-- A text as a label shows it. -/
def shortened (t : Text) (limit : Int) : Text :=
  if (t.length : Int) ≤ limit then t else cut t limit ++ "…"

def Node.label (limit : Int) : Node → Except Fault Text
  | .string v => .ok ("string \"" ++ shortened v limit ++ "\"")
  | .ident name => .ok ("identifier " ++ name)
  | .call _ (.items args) => .ok ("call_expression (" ++ Text.ofNat args.length ++ " args)")
  | .call _ args => .error (.noLength args)
  | .function kind .. => .ok (Text.ofString kind ++ " (scope boundary)")
  | n =>
    match n.kind? with
    | some kind => .ok (Text.ofString kind)
    | none => .error (.noKind n)

/-- What is drawn so far: the lines, the latest first, and how many nodes they show. -/
structure Drawn where
  lines : List Text := []
  count : Nat := 0
  scope : Scope := {}

def drawList (go : Node → Drawn → Except Fault Drawn) : List Node → Drawn → Except Fault Drawn
  | [], d => .ok d
  | n :: ns, d => do drawList go ns (← go n d)

def drawFields (go : String → Node → Drawn → Except Fault Drawn) (n : Node) :
    List (String × Arity) → Drawn → Except Fault Drawn
  | [], d => .ok d
  | (field, arity) :: fields, d => do
    let children ← n.inField field arity
    drawFields go n fields (← drawList (go field) children d)

def dumpLine (opts : DumpOptions) (level depth : Nat) (field : Option String) (label : Text) :
    Text :=
  (List.replicate level opts.indent).flatten ++
    (match field with
      | some f => Text.ofString f ++ ": "
      | none => []) ++
    label ++ (if opts.showDepth then " [depth=" ++ Text.ofNat depth ++ "]" else [])

/-- Draw a tree, with room for so many levels. -/
def draw (opts : DumpOptions) : Nat → Nat → Option String → Node → Drawn → Except Fault Drawn
  | 0, _, _, _, _ => .error .tooDeep
  | room + 1, level, field, n, d =>
    if opts.maxNodes ≤ d.count then .ok d
    else do
      let label ← n.label opts.textLimit
      let d := { d with
        lines := dumpLine opts level d.scope.depth field label :: d.lines
        count := d.count + 1 }
      match n.kind? with
      | none => .error (.noKind n)
      | some kind =>
        let (inside, opened) := d.scope.enter kind
        let fields ← n.fields
        let e ← drawFields (fun f => draw opts room (level + 1) (some f)) n fields
          { d with scope := inside }
        -- the scope was entered above, so it can be left
        .ok { e with scope := (e.scope.exit opened).getD e.scope }

/-- The lines of a dump with room for so many levels, with a last line if nodes may have been left out. -/
def Node.dump (room : Nat) (n : Node) (opts : DumpOptions := {}) : Except Fault (List Text) := do
  let d ← draw opts room 0 none n {}
  let marker :=
    if opts.maxNodes ≤ d.count then
      [opts.indent ++ "… (truncated at " ++ Text.ofInt opts.maxNodes ++ " nodes)"]
    else []
  .ok (d.lines.reverse ++ marker)

/-- The name of a source that comes from no file. -/
def unnamed : Text := Text.ofString "<source>"

/-- The lines of a dump under the name of the file. -/
def titled (file : Text) (lines : List Text) : Text :=
  Text.join "\n" (("// file=" ++ file) :: [] :: lines)

end LazyLint.Ast
