import LazyLint.Ast.Node

/-!
# Walking a tree

A walk shows every node to a visitor, in pre-order and with fields in the order of the schema, at
the depth of the function scopes around it. The depth is kept by a counter that is raised on the way
into a function and lowered on the way out, also when the walk is cut short.

The walk recurses once per level of the tree and has room for a limited number of levels.
-/

namespace LazyLint.Ast

/-! ## Scopes -/

/-- How many function scopes are open; zero is the top level of the module. -/
structure Scope where
  boundaryKinds : List String := functionKinds
  depth : Nat := 0
  deriving Repr, DecidableEq

namespace Scope

def isBoundary (s : Scope) (kind : String) : Bool :=
  s.boundaryKinds.contains kind

/-- Enter a node: the scope inside it, and whether it opened one. -/
def enter (s : Scope) (kind : String) : Scope × Bool :=
  if s.isBoundary kind then ({ s with depth := s.depth + 1 }, true) else (s, false)

/-- Leave a node that opened a scope or did not; no scope is left at the top level. -/
def exit (s : Scope) (opened : Bool) : Option Scope :=
  if ! opened then some s
  else if s.depth = 0 then none
  else some { s with depth := s.depth - 1 }

/-- The wording for leaving a scope at the top level. -/
def imbalanceMessage : String := "exit() called at module top level"

end Scope

/-! ## The walk -/

/-- Why a walk was cut short. -/
inductive Halt (ε : Type) where
  /-- The visitor stopped it. -/
  | visitor (e : ε)
  /-- The tree is not one that can be walked. -/
  | tree (f : Fault)
  /-- A scope was left at the top level. -/
  | imbalance

/-- What a walk leaves behind. -/
structure Walked (σ ε : Type) where
  scope : Scope
  state : σ
  halt : Option (Halt ε) := none

/-- A visitor sees a node at a depth, changes its state, and may stop the walk. -/
abbrev Visitor (σ ε : Type) := Node → Nat → σ → σ × Option ε

/-- Walk over nodes one after another, up to the first halt. -/
def walkList {σ ε : Type} (go : Node → Scope → σ → Walked σ ε) :
    List Node → Scope → σ → Walked σ ε
  | [], scope, state => { scope, state }
  | n :: ns, scope, state =>
    let w := go n scope state
    match w.halt with
    | some _ => w
    | none => walkList go ns w.scope w.state

/-- Walk over the fields of a node one after another, up to the first halt. -/
def walkFields {σ ε : Type} (go : Node → Scope → σ → Walked σ ε) (n : Node) :
    List (String × Arity) → Scope → σ → Walked σ ε
  | [], scope, state => { scope, state }
  | (field, arity) :: fields, scope, state =>
    match n.inField field arity with
    | .error f => { scope, state, halt := some (.tree f) }
    | .ok children =>
      let w := walkList go children scope state
      match w.halt with
      | some _ => w
      | none => walkFields go n fields w.scope w.state

/-- Walk over a tree, with room for so many levels. -/
def walk {σ ε : Type} (visit : Visitor σ ε) : Nat → Node → Scope → σ → Walked σ ε
  | 0, _, scope, state => { scope, state, halt := some (.tree .tooDeep) }
  | room + 1, n, scope, state =>
    let (state, stopped) := visit n scope.depth state
    match stopped, n.kind? with
    | some e, _ => { scope, state, halt := some (.visitor e) }
    | none, none => { scope, state, halt := some (.tree (.noKind n)) }
    | none, some kind =>
      let (inside, opened) := scope.enter kind
      let w : Walked σ ε :=
        match n.fields with
        | .error f => { scope := inside, state, halt := some (.tree f) }
        | .ok fields => walkFields (walk visit room) n fields inside state
      -- the scope is left also when the walk was cut short inside it
      match w.scope.exit opened with
      | some scope => { w with scope }
      | none => { w with halt := some .imbalance }

end LazyLint.Ast
