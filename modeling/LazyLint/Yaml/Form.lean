import LazyLint.Text.Basic

/-!
# The forms of plain scalars

A plain scalar without a tag is given one by its form: it may look like a truth value, a number, a
date, nothing at all, or the key that merges another map. Everything else is a text.
-/

namespace LazyLint.Yaml

/-- What a node is taken for. -/
inductive Tag where
  | null
  | bool
  | int
  | float
  | text
  | binary
  | timestamp
  | sequence
  | orderedMap
  | pairs
  | mapping
  | set
  /-- The key that merges another map into the one around it. -/
  | merge
  /-- The key for the plain value of a map. -/
  | value
  /-- A tag without a meaning here. -/
  | unknown
  deriving Repr, DecidableEq

/-- The common beginning of the tags that the format defines. -/
def coreStem : String := "tag:yaml.org,2002:"

def Tag.ofName (name : Text) : Tag :=
  let named : List (String × Tag) :=
    [("null", .null), ("bool", .bool), ("int", .int), ("float", .float), ("str", .text),
     ("binary", .binary), ("timestamp", .timestamp), ("seq", .sequence), ("omap", .orderedMap),
     ("pairs", .pairs), ("map", .mapping), ("set", .set), ("merge", .merge), ("value", .value)]
  ((named.find? fun e => Text.ofString (coreStem ++ e.1) == name).map (·.2)).getD .unknown

/-! ## Pieces of forms -/

def isDigitOrLow (c : Char) : Bool := c.isDigit || c = '_'

/-- The text without the sign it may start with. -/
def unsigned (cs : List Char) : List Char :=
  match cs with
  | '-' :: rest | '+' :: rest => rest
  | _ => cs

/-- A digit and further digits or underscores. -/
def isRun (cs : List Char) : Bool :=
  match cs with
  | c :: rest => c.isDigit && rest.all isDigitOrLow
  | [] => false

/-- The pieces between colons. -/
def colonPieces : List Char → List (List Char)
  | [] => [[]]
  | ':' :: rest => [] :: colonPieces rest
  | c :: rest =>
    match colonPieces rest with
    | piece :: pieces => (c :: piece) :: pieces
    | [] => [[c]]

/-- A number below sixty in one or two digits. -/
def isSixtieth (cs : List Char) : Bool :=
  match cs with
  | [a] => a.isDigit
  | [a, b] => '0' ≤ a && a ≤ '5' && b.isDigit
  | _ => false

/-- A number in base sixty: a run of digits, and pieces below sixty after colons. -/
def isSexagesimal (cs : List Char) : Bool :=
  match colonPieces cs with
  | first :: second :: more => isRun first && (second :: more).all isSixtieth
  | _ => false

/-- An exponent, whose sign has to stand. -/
def isExponent (cs : List Char) : Bool :=
  match cs with
  | e :: s :: ds =>
    (e = 'e' || e = 'E') && (s = '-' || s = '+') && ! ds.isEmpty && ds.all Char.isDigit
  | _ => false

/-- Digits and underscores, and an exponent if there is more. -/
def isFraction (cs : List Char) : Bool :=
  let rest := cs.dropWhile isDigitOrLow
  rest.isEmpty || isExponent rest

/-! ## Forms -/

def isTruth (s : String) : Bool :=
  ["yes", "Yes", "YES", "no", "No", "NO", "true", "True", "TRUE", "false", "False", "FALSE",
   "on", "On", "ON", "off", "Off", "OFF"].contains s

def isNothing (s : String) : Bool :=
  ["", "~", "null", "Null", "NULL"].contains s

def isInteger (cs : List Char) : Bool :=
  match unsigned cs with
  | '0' :: 'b' :: ds => ! ds.isEmpty && ds.all fun c => c = '0' || c = '1' || c = '_'
  | '0' :: 'x' :: ds =>
    ! ds.isEmpty &&
      ds.all fun c => isDigitOrLow c || ('a' ≤ c && c ≤ 'f') || ('A' ≤ c && c ≤ 'F')
  | ['0'] => true
  | '0' :: ds => ds.all fun c => ('0' ≤ c && c ≤ '7') || c = '_'
  | ds => isRun ds || isSexagesimal ds

def isFloat (cs : List Char) : Bool :=
  let body := unsigned cs
  let whole := body.takeWhile (· ≠ '.')
  match body.drop whole.length with
  | '.' :: after =>
    if whole.isEmpty then
      [".inf", ".Inf", ".INF"].contains (String.ofList body) ||
        [".nan", ".NaN", ".NAN"].contains (String.ofList cs) ||
        (cs.head? = some '.' && (after.head?.any Char.isDigit) && isFraction after)
    else
      (isRun whole && isFraction after) || (isSexagesimal whole && after.all isDigitOrLow)
  | _ => false

/-! ## Dates -/

/-- What a time of day says about its offset from universal time. -/
inductive Zone where
  | unsaid
  | universal
  | offset (isWest : Bool) (hour minute : Nat)

/-- The parts of a time of day. -/
structure TimeParts where
  hour : Nat
  minute : Nat
  second : Nat
  /-- The digits after the point. -/
  fraction : List Char
  zone : Zone

/-- The parts of a date, with a time of day if there is one. -/
structure DateParts where
  year : Nat
  month : Nat
  day : Nat
  /-- The month and the day have two digits each. -/
  isFull : Bool
  time : Option TimeParts

/-- The number that a text starts with, of at least and at most so many digits, how many they are,
and the rest. -/
def digitsBetween (least most : Nat) (cs : List Char) : Option (Nat × Nat × List Char) :=
  let ds := (cs.take most).takeWhile Char.isDigit
  if ds.length < least then none
  else some (ds.foldl (fun n d => n * 10 + (d.toNat - 0x30)) 0, ds.length, cs.drop ds.length)

/-- The text after a character. -/
def after (c : Char) (cs : List Char) : Option (List Char) :=
  match cs with
  | d :: rest => if c = d then some rest else none
  | [] => none

/-- The offset at the end of a time, if the text is one. -/
def zone? (cs : List Char) : Option Zone :=
  match cs, cs.dropWhile fun c => c = ' ' || c = '\t' with
  | [], _ => some .unsaid
  | _, ['Z'] => some .universal
  | _, s :: rest =>
    if s = '-' || s = '+' then do
      let (hour, _, rest) ← digitsBetween 1 2 rest
      if rest.isEmpty then return .offset (s = '-') hour 0
      let (minute, _, rest) ← digitsBetween 2 2 (← after ':' rest)
      if rest.isEmpty then return .offset (s = '-') hour minute else none
    else none
  | _, [] => none

/-- The parts of a date that a text spells. -/
def dateParts (cs : List Char) : Option DateParts := do
  let (year, _, rest) ← digitsBetween 4 4 cs
  let (month, m, rest) ← digitsBetween 1 2 (← after '-' rest)
  let (day, d, rest) ← digitsBetween 1 2 (← after '-' rest)
  let isFull := m = 2 && d = 2
  match rest with
  | [] => return { year, month, day, isFull, time := none }
  | s :: more =>
    let rest ←
      if s = 'T' || s = 't' then some more
      else if s = ' ' || s = '\t' then some (rest.dropWhile fun c => c = ' ' || c = '\t')
      else none
    let (hour, _, rest) ← digitsBetween 1 2 rest
    let (minute, _, rest) ← digitsBetween 2 2 (← after ':' rest)
    let (second, _, rest) ← digitsBetween 2 2 (← after ':' rest)
    let (fraction, rest) :=
      match rest with
      | '.' :: more => (more.takeWhile Char.isDigit, more.dropWhile Char.isDigit)
      | _ => ([], rest)
    let zone ← zone? rest
    return { year, month, day, isFull, time := some { hour, minute, second, fraction, zone } }

def isDate (cs : List Char) : Bool :=
  (dateParts cs).any fun d => d.isFull || d.time.isSome

/-- The tag that the form of a plain scalar gives it. -/
def Tag.ofPlain (t : Text) : Tag :=
  let cs := t.toChars
  let s := String.ofList cs
  if isTruth s then .bool
  else if isFloat cs then .float
  else if isInteger cs then .int
  else if s = "<<" then .merge
  else if isNothing s then .null
  else if isDate cs then .timestamp
  else if s = "=" then .value
  else if ["!", "&", "*"].contains s then .unknown
  else .text

end LazyLint.Yaml
