import LazyLint.Script.Cursor

/-!
# Patterns

The source of a destructuring target reads as an expression until the mark after it is seen. So the
reader reads an expression first and turns its tree into a pattern when an assignment, an arrow or
a loop head claims it. Expressions that no pattern looks like are refused.
-/

namespace LazyLint.Script

open Cst (Node Head)

/-- Targets that are patterns as they stand. -/
def isPlainTarget (kind : String) : Bool :=
  ["identifier", "undefined", "member_expression", "subscript_expression", "object_pattern",
   "array_pattern"].contains kind

/-- The target and the value of a lone assignment. -/
def initialised? : List Node → Option (Node × List Node)
  | [.mk h (left :: value)] =>
    if h.kind = "assignment_expression" && isPlainTarget left.kind then some (left, value) else none
  | _ => none

mutual

/-- The pattern that an expression reads as, if it reads as one. -/
def toPattern : Node → Option Node
  | .mk h cs =>
    if isPlainTarget h.kind then some (.mk h cs)
    else if h.kind = "array" then do
      some (.mk { h with kind := "array_pattern" } (← toElements cs))
    else if h.kind = "object" then do
      some (.mk { h with kind := "object_pattern" } (← toProperties cs))
    else none

/-- An element of a pattern: a target or the rest, either of them with a default or without. -/
def toElement : Node → Option Node
  | .mk h cs =>
    if h.kind = "assignment_expression" then
      match cs with
      | left :: _ =>
        if isPlainTarget left.kind then some (.mk { h with kind := "assignment_pattern" } cs)
        else none
      | [] => none
    else if h.kind = "spread_element" then
      match initialised? cs with
      | some (left, value) =>
        let rest := Node.mk { h with kind := "rest_pattern", stop := left.stop } [left]
        some (.mk { h with kind := "assignment_pattern" } (rest :: value))
      | none => do some (.mk { h with kind := "rest_pattern" } (← toTargets cs))
    else toPattern (.mk h cs)

def toTargets : List Node → Option (List Node)
  | [] => some []
  | n :: ns => do some ((← toPattern n) :: (← toTargets ns))

def toElements : List Node → Option (List Node)
  | [] => some []
  | n :: ns => do some ((← toElement n) :: (← toElements ns))

/-- A property of an object as a property of a pattern. -/
def toProperty : Node → Option Node
  | .mk h cs =>
    if h.kind = "shorthand_property_identifier" then
      some (.mk { h with kind := "shorthand_property_identifier_pattern" } cs)
    else if h.kind = "object_assignment_pattern" then some (.mk h cs)
    else if h.kind = "pair" then
      match cs with
      | [key, value] => do
        some (.mk { h with kind := "pair_pattern" } [key, (← toElement value)])
      | _ => none
    else if h.kind = "spread_element" then do
      some (.mk { h with kind := "rest_pattern" } (← toTargets cs))
    else none

def toProperties : List Node → Option (List Node)
  | [] => some []
  | n :: ns => do some ((← toProperty n) :: (← toProperties ns))

end

/-- The node as a target, for the pattern that claims it. -/
def asPattern (n : Node) : Parser Node :=
  fun c =>
    match toPattern n with
    | some p => .ok p { c with cover := none }
    | none => .fail { offset := n.start, row := n.row }

end LazyLint.Script
