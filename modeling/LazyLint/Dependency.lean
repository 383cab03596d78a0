import LazyLint.Text.Blank
import LazyLint.Value

/-!
# Heavy dependencies

A heavy dependency is named by a package name, `pkg` or `@scope/pkg`. A specifier targets it when its
first segments do: the name itself or a path below it and, for names without a scope, the name as a
scope (`@pkg/x`) or under the scope of a fork (`@org/pkg`). Segments are compared whole.
-/

namespace LazyLint.Dependency

def slash : CodePoint := 0x2F
def at_ : CodePoint := 0x40

/-- The built-in heavy dependencies: bundlers, test frameworks, compilers, linters, large libraries,
frameworks and process managers. -/
def defaults : List Text :=
  ["webpack", "rollup", "vite", "esbuild", "parcel",
   "jest", "mocha", "jasmine", "cypress", "playwright",
   "babel", "@babel/core", "typescript", "ts-node",
   "eslint", "prettier", "jshint",
   "lodash", "moment", "axios", "request",
   "react", "vue", "angular", "express",
   "nodemon", "pm2", "forever"].map Text.ofString

/-! ## Names -/

/-- A package name without a path: `pkg` or `@scope/pkg`. -/
def isBare (name : Text) : Bool :=
  match name with
  | c :: rest =>
    if c = at_ then
      match Text.splitAt slash rest with
      | [scope, pkg] => ! scope.isEmpty && ! pkg.isEmpty
      | _ => false
    else ! name.contains slash
  | [] => true

/-- Why a list of values is no list of package names. -/
inductive NameFault where
  /-- A value that is no text, or a text of blanks. -/
  | blank (v : Value)
  /-- A text that is a path. -/
  | path (name : Text)

/-- The value that the message of a fault shows so that its type can be told. -/
def NameFault.shown? : NameFault → Option Value
  | .blank v => some v
  | .path _ => none

def NameFault.message (room : Nat) : NameFault → Text
  | .blank v => v.showing room ("Heavy dependency names must be non-empty strings, got " ++ v.written)
  | .path name =>
    "Heavy dependency '" ++ name ++
      "' must be a package name ('pkg' or '@scope/pkg'), not a path"

/-- A value as a package name. -/
def ofValue (v : Value) : Except NameFault Text :=
  match v with
  | .text name =>
    if name.isAllBlank then .error (.blank v)
    else if isBare name then .ok name
    else .error (.path name)
  | _ => .error (.blank v)

/-- Values as package names after those already seen, each once and in the order of its first
appearance. -/
def normalizeFrom (seen : List Text) : List Value → Except NameFault (List Text)
  | [] => .ok seen
  | v :: vs => do
    let name ← ofValue v
    normalizeFrom (if name ∈ seen then seen else seen ++ [name]) vs

/-- Values as package names, each once and in the order of its first appearance. -/
def normalize (vs : List Value) : Except NameFault (List Text) :=
  normalizeFrom [] vs

/-! ## Matching -/

/-- The specifier is a dependency under some scope, or a path below one. -/
def isFork (specifier dep : Text) : Bool :=
  match specifier with
  | c :: rest =>
    c = at_ &&
      match Text.splitAt slash rest with
      | scope :: pkg :: _ => ! scope.isEmpty && pkg == dep
      | _ => false
  | [] => false

/-- The specifier starts with a dependency and a slash, or is a variant of a dependency without a
scope. -/
def reaches (specifier dep : Text) : Bool :=
  (dep ++ [slash]).isPrefixOf specifier ||
    (dep.head? != some at_ &&
      (([at_] ++ dep ++ [slash]).isPrefixOf specifier || isFork specifier dep))

def isHeavy (deps : List Text) (specifier : Text) : Bool :=
  deps.contains specifier || deps.any (reaches specifier)

end LazyLint.Dependency
