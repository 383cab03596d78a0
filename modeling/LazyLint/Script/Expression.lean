import LazyLint.Script.Operand

/-!
# Expressions

Operands with binary operators between them, by precedence: the operands whose operator still waits
for its right side are kept on a stack, and an operator of lower precedence closes those above it.
-/

namespace LazyLint.Script

open Cst (Node Head)

/-- The precedence of a binary operator. Only `**` groups to the right. -/
def precedence? : Lead → Option Nat
  | .word "in" | .word "instanceof" => some 8
  | .mark "??" => some 1
  | .mark "||" => some 2
  | .mark "&&" => some 3
  | .mark "|" => some 4
  | .mark "^" => some 5
  | .mark "&" => some 6
  | .mark "==" | .mark "!=" | .mark "===" | .mark "!==" => some 7
  | .mark "<" | .mark "<=" | .mark ">" | .mark ">=" => some 8
  | .mark "<<" | .mark ">>" | .mark ">>>" => some 9
  | .mark "+" | .mark "-" => some 10
  | .mark "*" | .mark "/" | .mark "%" => some 11
  | .mark "**" => some 12
  | _ => none

def operatorLength : Lead → Nat
  | .word w | .mark w => w.length
  | _ => 0

/-- A left operand that waits for its right side, and the precedence of its operator. -/
abbrev Waiting := Node × Nat

/-- Close the operators of the stack that bind at least as tightly as `p`. -/
def closeOperators (p : Nat) : List Waiting → Node → List Waiting × Node
  | [], right => ([], right)
  | (left, q) :: rest, right =>
    if p < q || (p = q && p ≠ 12) then
      closeOperators p rest (spanning "binary_expression" left right [left, right])
    else ((left, q) :: rest, right)

def closeAll (stack : List Waiting) (right : Node) : Node :=
  (closeOperators 0 stack right).2

/-- The conditional expression after its condition. -/
def conditionalRest (sub : Sub) (membership : Bool) (condition : Node) : Parser Node := do
  mark "?"
  let yes ← sub (.expression true false)
  mark ":"
  let no ← sub (.expression membership false)
  nodeFrom "ternary_expression" condition [condition, yes, no]

/-- Operators and operands after an operand. -/
def operatorsLoop (sub : Sub) (membership : Bool) : Nat → List Waiting → Node → Parser Node
  | 0, stack, right => pure (closeAll stack right)
  | fuel + 1, stack, right => do
    let next ← peek
    if right.kind == "private_property_identifier" && ! (next == .word "in") then unexpected
    else if next == .mark "?" then conditionalRest sub membership (closeAll stack right)
    else if next == .word "in" && ! membership then pure (closeAll stack right)
    else
      match precedence? next with
      | none => pure (closeAll stack right)
      | some p =>
        let (stack, left) := closeOperators p stack right
        take (operatorLength next)
        let right ← operand sub
        operatorsLoop sub membership fuel ((left, p) :: stack) right

/-- An expression without top-level commas. An initialised shorthand property in it is only left
pending where `cover` admits one, and only in an object or an array. -/
def expression (sub : Sub) (membership cover : Bool) : Parser Node := do
  let before ← Parser.here
  Parser.goto { before with cover := none }
  let first ← operand sub
  let n ← operatorsLoop sub membership before.left [] first
  let after ← Parser.here
  match after.cover with
  | none =>
    Parser.goto { after with cover := before.cover }
    pure n
  | some pending =>
    if cover && (n.kind == "object" || n.kind == "array") then
      Parser.goto { after with cover := before.cover <|> some pending }
      pure n
    else Parser.stop pending

end LazyLint.Script
