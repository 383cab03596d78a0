import LazyLint.Text.Quoted

/-!
# Providers of a grammar

A grammar is taken from a module under the first of some names that stands for a function there.
-/

namespace LazyLint.Provider

/-- None of the names stands for a function. -/
structure Fault where
  candidates : List Text

/-- The names in parentheses, with a comma after a single one. -/
def listed (names : List Text) : Text :=
  match names with
  | [name] => "(" ++ name.quoted ++ ",)"
  | _ => "(" ++ Text.join ", " (names.map Text.quoted) ++ ")"

def Fault.message (f : Fault) (module : Text) : Text :=
  module ++ " has none of " ++ listed f.candidates

/-- The first of the candidates that a module has as a function; `exported` says which names it has,
and whether they stand for functions. -/
def resolve (exported : List (Text × Bool)) (candidates : List Text) : Except Fault Text :=
  match candidates.find? fun c => exported.any fun e => e.1 == c && e.2 with
  | some c => .ok c
  | none => .error { candidates }

end LazyLint.Provider
