import LazyLint.Dependency
import LazyLint.Log
import LazyLint.Severity

/-!
# Configuration of the rule

The rule can be switched off, has a severity, and knows a list of heavy dependencies. A configuration
is read from the value of a document: of its top level one key counts, the name of the rule, and of
the entry below it four keys do. Everything else is passed over with a note in the log; a note on keys of
the entry that cannot be written is a fault. The environment can set the severity and add dependencies.

Notes and messages show values, and there is room for so many levels of a value to be written.
-/

namespace LazyLint

def ruleName : String := "lazy-import-heavy-js-deps"

structure Config where
  enabled : Bool := true
  severity : Severity := .warning
  deps : List Text := Dependency.defaults

namespace Config

/-- Why a value is no configuration. -/
inductive Fault where
  /-- The document holds something else than a map. -/
  | document (v : Value)
  /-- The entry of the rule is something else than a map. -/
  | rule (v : Value)
  /-- A key of the entry that means nothing cannot be written. -/
  | extraKey (k : Value)
  /-- The switch is not a truth value. -/
  | enabled (v : Value)
  /-- The severity is not the name of one. -/
  | severity (v : Value)
  /-- The value under a key is not a list of texts. -/
  | names (key : String) (v : Value)
  /-- A text of these lists is not the name of a package. -/
  | name (f : Dependency.NameFault)

def Fault.message (room : Nat) : Fault → Text
  | .document v => Text.ofString ("Configuration must be a mapping, got " ++ v.typeName)
  | .rule v => Text.ofString (ruleName ++ " must be a mapping, got " ++ v.typeName)
  | .extraKey k => k.showing room k.plain
  | .enabled v =>
    v.showing room (Text.ofString (ruleName ++ ".enabled must be a boolean, got ") ++ v.written)
  | .severity v =>
    v.showing room ("Invalid severity '" ++ v.plain ++ Text.ofString ("' for " ++ ruleName ++
      ": expected one of " ++ ", ".intercalate (Severity.all.map Severity.name)))
  | .names key v =>
    v.showing room
      (Text.ofString (ruleName ++ "." ++ key ++ " must be a list of strings, got ") ++ v.written)
  | .name f => f.message room

/-- The value that the message of a fault shows. -/
def Fault.shown? : Fault → Option Value
  | .document _ | .rule _ => none
  | .extraKey v | .enabled v | .severity v | .names _ v => some v
  | .name f => f.shown?

/-- The message would show a value that is nested too deeply to be written. -/
def Fault.isTooDeep (room : Nat) (f : Fault) : Bool :=
  f.shown?.any fun v => v.trouble? room = some .depth

/-! ## From a document -/

def ruleKeys : List Text :=
  ["enabled", "severity", "additionalHeavyDeps", "heavyDeps"].map Text.ofString

def severityOf (v : Value) : Except Fault Severity :=
  match Severity.ofValue v with
  | some s => .ok s
  | none => .error (.severity v)

def text? : Value → Option Text
  | .text t => some t
  | _ => none

/-- The texts of a list or tuple; nothing at all counts as an empty list. -/
def namesOf (key : String) (v : Value) : Except Fault (List Text) :=
  match v with
  | .null => .ok []
  | .list items _ | .tuple items =>
    match items.mapM text? with
    | some names => .ok names
    | none => .error (.names key v)
  | _ => .error (.names key v)

/-- Names without repetitions, if all of them are names of packages. -/
def checkNames (names : List Text) : Except Fault (List Text) :=
  (Dependency.normalize (names.map Value.text)).mapError .name

/-- The configuration that the entry of the rule gives. The first thing wrong with it counts: the
switch, the severity, the list that replaces the built-in names, the list that is added, the
names. -/
def ofRule (rule : Value) : Except Fault Config := do
  let enabled ←
    match rule.get? "enabled" with
    | none => pure true
    | some (.bool b) => pure b
    | some v => throw (.enabled v)
  let severity ←
    match rule.get? "severity" with
    | none => pure Severity.warning
    | some v => severityOf v
  let base ←
    match (rule.get? "heavyDeps").getD .null with
    -- an empty list is not nothing: it replaces the defaults
    | .null => pure Dependency.defaults
    | v => namesOf "heavyDeps" v
  let additional ← namesOf "additionalHeavyDeps" ((rule.get? "additionalHeavyDeps").getD .null)
  let deps ← checkNames (base ++ additional)
  return { enabled, severity, deps }

/-- The notes about keys of the document that are not the rule's. -/
def notesOnDocument (room : Nat) (v : Value) : List Log.Record :=
  (v.keys.filter fun k => ! k.isText (Text.ofString ruleName)).map fun k =>
    { Log.debug ("Ignoring unrecognised configuration key '" ++ k.plain ++ "'") with
      trouble := k.trouble? room }

/-- Texts in the order of their code points. -/
def sorted (ts : List Text) : List Text :=
  ts.mergeSort fun a b => ! decide (b < a)

/-- The keys of the rule's entry that mean nothing. -/
def extraKeys (rule : Value) : List Value :=
  rule.keys.filter fun k => ! ruleKeys.any k.isText

/-- The note about keys of the rule's entry that mean nothing. -/
def notesOnRule (rule : Value) : List Log.Record :=
  match extraKeys rule with
  | [] => []
  | extra =>
    let names := sorted (extra.map Value.plain)
    [Log.debug (Text.ofString ("Ignoring unrecognised " ++ ruleName ++ " keys: ") ++
      (Value.list (names.map Value.text)).written)]

/-- The configuration that the entry of the rule gives after its other keys have been noted, and the
note. -/
def ofEntry (room : Nat) (rule : Value) : List Log.Record × Except Fault Config :=
  match (extraKeys rule).find? fun k => (k.trouble? room).isSome with
  | some k => ([], .error (.extraKey k))
  | none => (notesOnRule rule, ofRule rule)

/-- The configuration that a document gives, and what is logged on the way. -/
def ofValue (room : Nat) (v : Value) : List Log.Record × Except Fault Config :=
  if v.isFalsy then ([], .ok {})
  else
    match v with
    | .map .. =>
      let notes := notesOnDocument room v
      match (v.get? (Text.ofString ruleName)).getD .null with
      | .null => (notes, .ok {})
      | rule@(.map ..) =>
        let (more, c) := ofEntry room rule
        (notes ++ more, c)
      | rule => (notes, .error (.rule rule))
    | _ => ([], .error (.document v))

/-! ## From the environment -/

/-- The variables of the environment. -/
abbrev Environment := List (Text × Text)

/-- The value of a variable; one that is set to nothing counts as unset. -/
def setting? (env : Environment) (name : String) : Option Text :=
  match env.find? fun e => e.1 == Text.ofString name with
  | some (_, value) => if value.isEmpty then none else some value
  | none => none

def severityVariable : String := "DUSTY_SEVERITY"
def dependenciesVariable : String := "DUSTY_ADDITIONAL_HEAVY_DEPS"
def pathVariable : String := "DUSTY_CONFIG"

/-- The pieces between commas, without the blanks around them and without empty ones. -/
def pieces (t : Text) : List Text :=
  ((Text.splitAt 0x2C t).map Text.strip).filter fun p => ! p.isEmpty

/-- The configuration with what the environment sets. -/
def withEnvironment (c : Config) (env : Environment) : Except Fault Config := do
  let c ←
    match setting? env severityVariable with
    | some raw => do pure { c with severity := ← severityOf (.text raw) }
    | none => pure c
  match setting? env dependenciesVariable with
  | some raw => return { c with deps := ← checkNames (c.deps ++ pieces raw) }
  | none => return c

end Config

end LazyLint
