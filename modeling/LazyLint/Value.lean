import LazyLint.Calendar
import LazyLint.Decimal.Shortest
import LazyLint.Text.Number
import LazyLint.Text.Quoted

/-!
# Configuration values

What a configuration document can hold, and how values are written in messages: `written` shows a
value so that its type can be told, `plain` shows a text as it is. Integers of very many digits and values
that are nested very deeply cannot be written (`trouble?`), and a message that would show one says so
instead.
-/

namespace LazyLint

/-- A time of day, with its offset from universal time in seconds if it has one. -/
structure Clock where
  hour : Nat
  minute : Nat
  second : Nat
  micro : Nat
  offset : Option Int
  deriving Repr, DecidableEq

/-- A value of a configuration document. Lists and maps that come from a document are labelled, so
that one that holds itself can be told from one that looks like it. -/
inductive Value where
  | null
  | bool (b : Bool)
  | int (n : Int)
  | float (x : Float)
  | text (t : Text)
  | bytes (bs : List UInt8)
  | date (year month day : Nat)
  | instant (year month day : Nat) (clock : Clock)
  | list (items : List Value) (label : Option Nat := none)
  | tuple (items : List Value)
  /-- A set, whose members stand in the order in which it gives them out. -/
  | set (members : List Value)
  | map (entries : List (Value × Value)) (label : Option Nat := none)
  /-- The list or map around this place that has the label: a document may hold itself. -/
  | loop (isMap : Bool) (label : Nat)

namespace Value

def typeName : Value → String
  | .null => "NoneType"
  | .bool _ => "bool"
  | .int _ => "int"
  | .float _ => "float"
  | .text _ => "str"
  | .bytes _ => "bytes"
  | .date .. => "date"
  | .instant .. => "datetime"
  | .list .. | .loop false _ => "list"
  | .tuple _ => "tuple"
  | .set _ => "set"
  | .map .. | .loop true _ => "dict"

/-- Empty and zero values say nothing. -/
def isFalsy : Value → Bool
  | .null => true
  | .bool b => ! b
  | .int n => n = 0
  | .float x => x == 0
  | .text t => t.isEmpty
  | .bytes bs => bs.isEmpty
  | .list items _ | .tuple items => items.isEmpty
  | .set members => members.isEmpty
  | .map entries _ => entries.isEmpty
  | .date .. | .instant .. | .loop .. => false

/-! ## Numbers -/

/-- Decimals are written with an exponent when their point would stand before the fourth zero after
it, or after the sixteenth digit. -/
def positional (point : Int) : Bool :=
  -4 < point && point ≤ 16

/-- A decimal of significant digits whose point stands after `point` of them. -/
def writtenDecimal (digits : List Char) (point : Int) : String :=
  let n := digits.length
  if positional point then
    if point ≤ 0 then "0." ++ String.ofList (List.replicate point.natAbs '0' ++ digits)
    else if n ≤ point.toNat then
      String.ofList (digits ++ List.replicate (point.toNat - n) '0') ++ ".0"
    else String.ofList (digits.take point.toNat) ++ "." ++ String.ofList (digits.drop point.toNat)
  else
    let e := point - 1
    let magnitude := Nat.repr e.natAbs
    let padded := if magnitude.length < 2 then "0" ++ magnitude else magnitude
    let fraction := if n ≤ 1 then "" else "." ++ String.ofList (digits.drop 1)
    String.ofList (digits.take 1) ++ fraction ++ "e" ++ (if e < 0 then "-" else "+") ++ padded

/-- The digits without the zeros at their end. -/
def withoutTrailingZeros (digits : List Char) : List Char :=
  (digits.reverse.dropWhile (· = '0')).reverse

/-- A double with the fewest digits that read back. -/
def writtenFloat (x : Float) : String :=
  if x.isNaN then "nan"
  else
    let bits := x.toBits
    let sign := if bits.toNat / Nat.pow 2 63 = 1 then "-" else ""
    if x.isInf then sign ++ "inf"
    else
      let d := (Decimal.Binary.ofBits bits).shortest
      if d.digits = 0 then sign ++ "0.0"
      else
        let all := Nat.toDigits 10 d.digits
        sign ++ writtenDecimal (withoutTrailingZeros all) (all.length + d.exponent)

/-! ## Dates -/

/-- A number of at least so many digits. -/
def padded (width n : Nat) : String :=
  let s := Nat.repr n
  String.ofList (List.replicate (width - s.length) '0') ++ s

def plainDate (year month day : Nat) : String :=
  padded 4 year ++ "-" ++ padded 2 month ++ "-" ++ padded 2 day

/-- An offset as hours and minutes, and seconds if there are any. -/
def plainOffset (seconds : Int) : String :=
  let n := seconds.natAbs
  (if seconds < 0 then "-" else "+") ++ padded 2 (n / 3600) ++ ":" ++ padded 2 (n / 60 % 60) ++
    (if n % 60 = 0 then "" else ":" ++ padded 2 (n % 60))

def plainClock (c : Clock) : String :=
  padded 2 c.hour ++ ":" ++ padded 2 c.minute ++ ":" ++ padded 2 c.second ++
    (if c.micro = 0 then "" else "." ++ padded 6 c.micro) ++
    (match c.offset with
      | some s => plainOffset s
      | none => "")

/-- The offset of a clock, in the notation that shows types. -/
def writtenOffset (seconds : Int) : String :=
  if seconds = 0 then "datetime.timezone.utc"
  else "datetime.timezone(" ++ Calendar.spanText seconds ++ ")"

def writtenInstant (year month day : Nat) (c : Clock) : String :=
  let parts := [year, month, day, c.hour, c.minute] ++
    (if c.second = 0 && c.micro = 0 then [] else [c.second]) ++
    (if c.micro = 0 then [] else [c.micro])
  "datetime.datetime(" ++ ", ".intercalate (parts.map Nat.repr) ++
    (match c.offset with
      | some s => ", tzinfo=" ++ writtenOffset s
      | none => "") ++ ")"

/-! ## Bytes -/

/-- A byte as it stands between two quotes. -/
def writtenByte (quote b : UInt8) : Text :=
  if b = quote || b = 0x5C then Text.ofChars ['\\', Char.ofNat b.toNat]
  else if b = 9 then "\\t"
  else if b = 10 then "\\n"
  else if b = 13 then "\\r"
  else if 0x20 ≤ b && b < 0x7F then Text.ofChars [Char.ofNat b.toNat]
  else "\\x" ++ Text.hexDigits 2 b.toNat

/-- Bytes in quotes, with the mark of bytes before them. -/
def writtenBytes (bs : List UInt8) : Text :=
  let q : UInt8 := if bs.contains 0x27 && ! bs.contains 0x22 then 0x22 else 0x27
  let mark := Text.ofChars [Char.ofNat q.toNat]
  "b" ++ mark ++ bs.flatMap (writtenByte q) ++ mark

/-! ## Values -/

mutual

/-- The value as messages show it, inside the lists and maps with the given labels. One of these is
shown as an ellipsis where it is met again. -/
def writtenIn (around : List Nat) : Value → Text
  | .null => "None"
  | .bool true => "True"
  | .bool false => "False"
  | .int n => Text.ofInt n
  | .float x => Text.ofString (writtenFloat x)
  | .text t => t.quoted
  | .bytes bs => writtenBytes bs
  | .date y m d =>
    Text.ofString ("datetime.date(" ++ ", ".intercalate ([y, m, d].map Nat.repr) ++ ")")
  | .instant y m d c => Text.ofString (writtenInstant y m d c)
  | .list items label =>
    if label.any around.contains then "[...]"
    else "[" ++ Text.join ", " (writtenItems (label.toList ++ around) items) ++ "]"
  | .tuple [v] => "(" ++ writtenIn around v ++ ",)"
  | .tuple items => "(" ++ Text.join ", " (writtenItems around items) ++ ")"
  | .set [] => "set()"
  | .set members => "\x7b" ++ Text.join ", " (writtenItems around members) ++ "\x7d"
  | .map entries label =>
    if label.any around.contains then "\x7b...\x7d"
    else "\x7b" ++ Text.join ", " (writtenEntries (label.toList ++ around) entries) ++ "\x7d"
  | .loop false _ => "[...]"
  | .loop true _ => "\x7b...\x7d"

def writtenItems (around : List Nat) : List Value → List Text
  | [] => []
  | v :: vs => writtenIn around v :: writtenItems around vs

def writtenEntries (around : List Nat) : List (Value × Value) → List Text
  | [] => []
  | (k, v) :: es =>
    (writtenIn around k ++ ": " ++ writtenIn around v) :: writtenEntries around es

end

/-- The value as messages show it. -/
def written (v : Value) : Text :=
  v.writtenIn []

/-! ### What cannot be written -/

/-- Why a value cannot be written. -/
inductive Trouble where
  /-- An integer has too many digits. -/
  | digits
  /-- The value is nested too deeply. -/
  | depth
  deriving Repr, DecidableEq

def Trouble.message : Trouble → Text
  | .digits =>
    Text.ofString ("Exceeds the limit (" ++ Nat.repr Text.maxDecimalDigits ++
      " digits) for integer string conversion; use sys.set_int_max_str_digits() to increase the limit")
  | .depth => "maximum recursion depth exceeded while getting the repr of an object"

/-- The levels that the offset of a clock is written on. -/
def Clock.offsetLevels (c : Clock) : Nat :=
  match c.offset with
  | none => 0
  | some seconds => if seconds = 0 then 1 else 2

mutual

/-- What ends the writing of a value inside the lists and maps with the given labels, with room for so many
levels. Integers are written with as many digits as may be read, or fewer. -/
def troubleIn (around : List Nat) : Nat → Value → Option Trouble
  | 0, _ => some .depth
  | _ + 1, .int n => if n.natAbs < Nat.pow 10 Text.maxDecimalDigits then none else some .digits
  | room + 1, .instant _ _ _ c => if Clock.offsetLevels c ≤ room then none else some .depth
  | room + 1, .list items label =>
    if label.any around.contains then none else troubleAmong (label.toList ++ around) room items
  | room + 1, .tuple items => troubleAmong around room items
  -- the members of a set are written as a list
  | room + 1, .set members => troubleAmong around (room - 1) members
  | room + 1, .map entries label =>
    if label.any around.contains then none else troubleAmongEntries (label.toList ++ around) room entries
  | _ + 1, _ => none

/-- What ends the writing of values one after another. -/
def troubleAmong (around : List Nat) : Nat → List Value → Option Trouble
  | _, [] => none
  | room, v :: vs => (troubleIn around room v).or (troubleAmong around room vs)

/-- What ends the writing of the entries of a map. -/
def troubleAmongEntries (around : List Nat) : Nat → List (Value × Value) → Option Trouble
  | _, [] => none
  | room, (k, v) :: es =>
    ((troubleIn around room k).or (troubleIn around room v)).or (troubleAmongEntries around room es)

end

/-- What ends the writing of a value, with room for so many levels. -/
def trouble? (room : Nat) (v : Value) : Option Trouble :=
  v.troubleIn [] room

/-- A text that shows a value, if the value can be written. -/
def showing (room : Nat) (v : Value) (t : Text) : Text :=
  match v.trouble? room with
  | none => t
  | some trouble => trouble.message

/-- The value with a text as it is. -/
def plain : Value → Text
  | .text t => t
  | .date y m d => Text.ofString (plainDate y m d)
  | .instant y m d c => Text.ofString (plainDate y m d ++ " " ++ plainClock c)
  | v => v.written

/-! ## Access -/

mutual

/-- The value with a whole put for the places where that whole is met again. -/
def unfold (whole : Value) (label : Nat) : Value → Value
  | .list items l => .list (unfoldItems whole label items) l
  | .tuple items => .tuple (unfoldItems whole label items)
  | .map entries l => .map (unfoldEntries whole label entries) l
  | .loop isMap l => if l = label then whole else .loop isMap l
  | v => v

/-- The items with a whole put for the places where it is met again. -/
def unfoldItems (whole : Value) (label : Nat) : List Value → List Value
  | [] => []
  | v :: vs => unfold whole label v :: unfoldItems whole label vs

/-- The entries with a whole put for the places where it is met again. -/
def unfoldEntries (whole : Value) (label : Nat) : List (Value × Value) → List (Value × Value)
  | [] => []
  | (k, v) :: es => (k, unfold whole label v) :: unfoldEntries whole label es

end

def isText (v : Value) (t : Text) : Bool :=
  match v with
  | .text u => u == t
  | _ => false

/-- The value under a text key of a map. -/
def get? (v : Value) (key : Text) : Option Value :=
  match v with
  | .map entries label =>
    (entries.find? fun e => e.1.isText key).map fun e =>
      match label with
      | some l => unfold v l e.2
      | none => e.2
  | _ => none

def keys : Value → List Value
  | .map entries _ => entries.map (·.1)
  | _ => []

end Value

end LazyLint
