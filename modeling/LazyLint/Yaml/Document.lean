import LazyLint.Text.Number
import LazyLint.Value
import LazyLint.Yaml.Graph

/-!
# The value of a document

Each node of a document stands for a value by its tag. Where a node is met again inside itself, the
value refers to the value around it by the node's number.

If several nodes are at fault, the one nearest to the root counts, and of those the first.
-/

namespace LazyLint.Yaml

/-- A fault, and how far below the root it is met. -/
structure Deep where
  level : Nat
  fault : Fault

/-- Of two results that are both needed, the values or the fault that counts. -/
def both {α β : Type} (a : Except Deep α) (b : Except Deep β) : Except Deep (α × β) :=
  match a, b with
  | .ok a, .ok b => .ok (a, b)
  | .error e, .ok _ => .error e
  | .ok _, .error e => .error e
  | .error e, .error f => .error (if f.level < e.level then f else e)

/-! ## Scalars -/

/-- The text without underscores. -/
def withoutLows (t : Text) : Text :=
  t.filter (· ≠ 0x5F)

/-- The sign that a text starts with, and the rest. -/
def splitSign (t : Text) : Bool × Text :=
  match t with
  | c :: rest => if c = 0x2D then (true, rest) else if c = 0x2B then (false, rest) else (false, t)
  | [] => (false, t)

/-- An integer in a base. -/
def intIn (base : Nat) (t : Text) : Except Fault Int :=
  match t.int? base with
  | some n => .ok n
  | none => .error (if t.isTooLong base then .longInteger t.digitCount else .integer base t)

/-- The integer of a scalar: binary, octal, decimal, hexadecimal, or in base sixty. -/
def intValue (t : Text) : Except Fault Value := do
  let t := withoutLows t
  if t.isEmpty then throw .noNumber
  let (negative, t) := splitSign t
  let n ←
    match t with
    | [] => throw .noNumber
    | [0x30] => pure 0
    | c :: rest =>
      if c = 0x30 then
        -- the letters `b` and `x`; a zero alone marks base eight
        if rest.head? = some 0x62 then intIn 2 (rest.drop 1)
        else if rest.head? = some 0x78 then intIn 16 (rest.drop 1)
        else intIn 8 t
      -- colons between digits in base sixty
      else if t.contains 0x3A then do
        let parts ← (Text.splitAt 0x3A t).mapM (intIn 10)
        pure (parts.foldl (fun n d => n * 60 + d) 0)
      else intIn 10 t
  return .int (if negative then -n else n)

/-- The double of a mantissa and a power of ten. -/
def scientific (mantissa : Nat) (exponent : Int) : Float :=
  let size := (Nat.toDigits 10 mantissa).length
  if mantissa = 0 then 0
  else if 400 < size + exponent then 1.0 / 0.0
  else if size + exponent < -400 then 0
  else Float.ofScientific mantissa (exponent < 0) exponent.natAbs

/-- The number that decimal digits of any script spell; none if there is something else. -/
def decimalNat? (t : Text) : Option Nat :=
  t.foldl (fun n c => do return (← n) * 10 + (← c.decimal?)) (some 0)

/-- The double that a text spells. -/
def float? (t : Text) : Option Float := do
  let t := t.dropWhile CodePoint.isNumberBlank
  let t := (t.reverse.dropWhile CodePoint.isNumberBlank).reverse
  let (negative, t) := splitSign t
  let magnitude ←
    if [Text.ofString "inf", Text.ofString "infinity"].contains t then some (1.0 / 0.0)
    else if t == Text.ofString "nan" then some (0.0 / 0.0)
    else
      -- the letter `e`: capitals are small by now
      let mantissa := t.takeWhile (· ≠ 0x65)
      let exponent ←
        match t.drop mantissa.length with
        | [] => some 0
        | _ :: e =>
          let (negative, ds) := splitSign e
          if ds.isEmpty then none
          else (decimalNat? ds).map fun n => if negative then -(n : Int) else (n : Int)
      let whole := mantissa.takeWhile (· ≠ 0x2E)
      let fraction := (mantissa.drop whole.length).drop 1
      if whole.isEmpty && fraction.isEmpty then none
      else (decimalNat? (whole ++ fraction)).map fun m => scientific m (exponent - fraction.length)
  return if negative then -magnitude else magnitude

/-- A double with a fault for a text that is none. -/
def floatOf (t : Text) : Except Fault Float :=
  match float? t with
  | some x => .ok x
  | none => .error (.float t)

/-- The text with the capitals of ASCII made small. -/
def lowercase (t : Text) : Text :=
  t.map fun c =>
    if 0x41 ≤ c.val && c.val ≤ 0x5A then Fin.ofNat 0x110000 (c.val + 0x20) else c

/-- The sum of the parts of a number in base sixty, the last part first; the weight of a part must be a
double. -/
def sixties : Nat → Float → List Float → Except Fault Float
  | _, x, [] => .ok x
  | weight, x, part :: parts =>
    if Nat.pow 2 1024 ≤ weight then .error .tooLarge
    else sixties (weight * 60) (x + part * scientific weight 0) parts

/-- The double of a scalar: decimal, in base sixty, infinite, or not a number. -/
def floatValue (t : Text) : Except Fault Value := do
  let t := lowercase (withoutLows t)
  if t.isEmpty then throw .noNumber
  let (negative, t) := splitSign t
  if t == Text.ofString ".nan" then return .float (0.0 / 0.0)
  let x ←
    if t == Text.ofString ".inf" then pure (1.0 / 0.0)
    else if t.contains 0x3A then do
      let parts ← (Text.splitAt 0x3A t).mapM floatOf
      sixties 1 0 parts.reverse
    else floatOf t
  return .float (if negative then -x else x)

/-- The truth value of a scalar. -/
def boolValue (t : Text) : Except Fault Value :=
  let t := lowercase t
  if ["yes", "true", "on"].any fun s => Text.ofString s == t then .ok (.bool true)
  else if ["no", "false", "off"].any fun s => Text.ofString s == t then .ok (.bool false)
  else .error (.truth t)

/-- The millionths of a second that digits after the point stand for. -/
def microseconds (digits : List Char) : Nat :=
  let six := digits.take 6
  six.foldl (fun n d => n * 10 + (d.toNat - 0x30)) 0 * Nat.pow 10 (6 - six.length)

/-- The date of a scalar, with a time of day if it has one. -/
def dateValue (t : Text) : Except Fault Value := do
  match dateParts t.toChars with
  | none => throw .timestamp
  | some d =>
    let check (f : Option Calendar.Fault) : Except Fault Unit :=
      match f with
      | some f => .error (.calendar f)
      | none => .ok ()
    match d.time with
    | none =>
      check (Calendar.dateFault? d.year d.month d.day)
      return .date d.year d.month d.day
    | some time =>
      let offset : Option Int :=
        match time.zone with
        | .unsaid => none
        | .universal => some 0
        | .offset isWest hour minute =>
          let seconds : Int := (hour * 60 + minute) * 60
          some (if isWest then -seconds else seconds)
      -- the first fault in this order is the one that is reported
      check (offset.bind Calendar.offsetFault?)
      check (Calendar.dateFault? d.year d.month d.day)
      check (Calendar.timeFault? time.hour time.minute time.second)
      return .instant d.year d.month d.day
        { hour := time.hour
          minute := time.minute
          second := time.second
          micro := microseconds time.fraction
          offset }

/-- The value of a digit in base sixty-four. -/
def digit64? (c : Char) : Option Nat :=
  if 'A' ≤ c && c ≤ 'Z' then some (c.toNat - 0x41)
  else if 'a' ≤ c && c ≤ 'z' then some (c.toNat - 0x61 + 26)
  else if c.isDigit then some (c.toNat - 0x30 + 52)
  else if c = '+' then some 62
  else if c = '/' then some 63
  else none

/-- The bytes that digits in base sixty-four spell, after those of the present group of four, with
the bits left over and the number of padding signs in a row. Other characters do not count. -/
def bytes64 : Nat → Nat → Nat → List Char → Option (List UInt8)
  | held, _, _, [] => if held = 0 then some [] else none
  | held, bits, pads, c :: rest =>
    if c = '=' then
      if 2 ≤ held && 4 ≤ held + (pads + 1) then some []
      else bytes64 held bits (if 2 ≤ held then pads + 1 else pads) rest
    else
      match digit64? c with
      | none => bytes64 held bits pads rest
      | some d =>
        match held with
        | 0 => bytes64 1 d 0 rest
        | 1 => (bytes64 2 (d % 16) 0 rest).map ((bits * 4 + d / 16).toUInt8 :: ·)
        | 2 => (bytes64 3 (d % 4) 0 rest).map ((bits * 16 + d / 4).toUInt8 :: ·)
        | _ => (bytes64 0 0 0 rest).map ((bits * 64 + d).toUInt8 :: ·)

/-- The bytes of a scalar. -/
def binaryValue (t : Text) : Except Fault Value :=
  if t.any fun c => 0x7F < c.val then .error .malformed
  else
    match bytes64 0 0 0 t.toChars with
    | some bs => .ok (.bytes bs)
    | none => .error .malformed

/-- The value of a scalar by its tag; collections have none. -/
def scalarValue (tag : Tag) (t : Text) : Except Fault Value :=
  match tag with
  | .null => .ok .null
  | .bool => boolValue t
  | .int => intValue t
  | .float => floatValue t
  | .text => .ok (.text t)
  | .binary => binaryValue t
  | .timestamp => dateValue t
  | _ => .error .malformed

/-! ## Keys -/

def isKeyValue : Value → Bool
  | .list .. | .map .. | .set _ | .loop .. => false
  | _ => true

/-- The number that a value counts as in a comparison, as a mantissa and a power of two. -/
def numberOf? : Value → Option (Int × Int)
  | .bool b => some (if b then 1 else 0, 0)
  | .int n => some (n, 0)
  | .float x =>
    if x.isNaN || x.isInf then none
    else
      let b := Decimal.Binary.ofBits x.toBits
      some (if x < 0 then -(b.mantissa : Int) else b.mantissa, b.exponent)
  | _ => none

/-- Two numbers in powers of two are the same. -/
def sameNumber (a b : Int × Int) : Bool :=
  let low := min a.2 b.2
  a.1 * (Nat.pow 2 (a.2 - low).toNat : Nat) == b.1 * (Nat.pow 2 (b.2 - low).toNat : Nat)

/-- Two keys are the same: numbers by their amount, whatever their type. -/
def sameKey (a b : Value) : Bool :=
  match numberOf? a, numberOf? b with
  | some x, some y => sameNumber x y
  | none, none =>
    match a, b with
    | .null, .null => true
    | .text s, .text t => s == t
    | .bytes s, .bytes t => s == t
    | .float x, .float y => x == y
    | .date y m d, .date y' m' d' => y == y' && m == m' && d == d'
    | .instant y m d c, .instant y' m' d' c' => y == y' && m == m' && d == d' && c == c'
    | _, _ => false
  | _, _ => false

/-- With one more entry. A key that is there already keeps its place and gets the new value. -/
def insert (entries : List (Value × Value)) (key value : Value) : List (Value × Value) :=
  if entries.any fun e => sameKey e.1 key then
    entries.map fun e => if sameKey e.1 key then (e.1, value) else e
  else entries ++ [(key, value)]

/-- With one more member, unless it is there already. -/
def insertMember (members : List Value) (v : Value) : List Value :=
  if members.any (sameKey · v) then members else members ++ [v]

/-! ### The order of sets -/

/-- The hash of a number, as a word of 64 bits: its remainder by a prime for which the sixty-first power of
two is one, with its sign. -/
def hashOf? (v : Value) : Option Nat :=
  (numberOf? v).map fun (m, e) =>
    let h := m.natAbs * Nat.pow 2 (e % 61).toNat % 0x1FFFFFFFFFFFFFFF
    -- the hash -1 is that of a fault, and two stands in for it
    if 0 ≤ m then h else (0x10000000000000000 - if h = 1 then 2 else h) % 0x10000000000000000

/-- The slot that is free for a hash, after so many tries at most: some slots in a row, if the table has
them, and then the same from elsewhere. -/
def freeSlot? (taken : List Nat) (size : Nat) : Nat → Nat → Nat → Option Nat
  | 0, _, _ => none
  | tries + 1, i, hash =>
    let near := if i + 9 < size then List.range' i 10 else [i]
    match near.find? fun slot => ! taken.contains slot with
    | some slot => some slot
    | none => freeSlot? taken size tries ((i * 5 + 1 + hash / 32) % size) (hash / 32)

/-- The number of slots for so many members. -/
def tableSize (n : Nat) : Nat :=
  if n < 5 then 8 else Nat.pow 2 ((2 * n).log2 + 1)

/-- The members of a set in the order in which it gives them out, which is that of their slots. The hashes
of texts differ from run to run: a set with a member other than a number keeps the order of the document. -/
def inSetOrder (members : List Value) : List Value :=
  match members.mapM hashOf? with
  | none => members
  | some hashes =>
    let size := tableSize members.length
    let table := (members.zip hashes).foldl (fun (table : List (Nat × Value)) (v, h) =>
      match freeSlot? (table.map (·.1)) size (size + 16) (h % size) h with
      | some slot => (slot, v) :: table
      | none => table) []
    (List.range size).filterMap fun slot => (table.find? (·.1 = slot)).map (·.2)

/-! ## Collections -/

def tagAt (g : Graph) (i : Nat) : Tag :=
  match g[i]? with
  | some (.scalar tag _) | some (.sequence tag _) | some (.mapping tag _) => tag
  | none => .unknown

/-- The text of a scalar, or of the plain value of a mapping. -/
def textAt (g : Graph) : Nat → Nat → Option Text
  | 0, _ => none
  | fuel + 1, i =>
    match g[i]? with
    | some (.scalar _ t) => some t
    | some (.mapping _ entries) =>
      match entries.find? fun e => tagAt g e.1 = .value with
      | some (_, v) => textAt g fuel v
      | none => none
    | _ => none

/-- The entries of a mapping: those merged into it, of which earlier ones in a list come later, and
its own. Inside the mappings with the given numbers, these are not merged again. -/
def entriesAt (g : Graph) : Nat → List Nat → Nat → Option (List (Nat × Nat))
  | 0, _, _ => none
  | fuel + 1, around, i =>
    match g[i]? with
    | some (.mapping _ entries) =>
      let isMerge (e : Nat × Nat) : Bool := tagAt g e.1 = .merge
      let own := entries.filter fun e => ! isMerge e
      if around.contains i then some own
      else
        let sub := entriesAt g fuel (i :: around)
        let merged (e : Nat × Nat) : Option (List (Nat × Nat)) :=
          match g[e.2]? with
          | some (.mapping ..) => sub e.2
          | some (.sequence _ items) => (items.mapM sub).map fun es => es.reverse.flatten
          | _ => none
        ((entries.filter isMerge).mapM merged).map fun ms => ms.flatten ++ own
    | _ => none

/-- The key and the value of each mapping of one entry in a sequence of such. -/
def pairsAt (g : Graph) (items : List Nat) : Option (List (Nat × Nat)) :=
  items.mapM fun i =>
    match (g[i]? : Option Node) with
    | some (.mapping _ [e]) => some e
    | _ => none

/-- All the results, or the fault that counts. -/
def all {α : Type} : List (Except Deep α) → Except Deep (List α)
  | [] => .ok []
  | r :: rs => (both r (all rs)).map fun (x, xs) => x :: xs

/-- A key that may be one. -/
def checkKey (level : Nat) (k : Except Deep Value) : Except Deep Value := do
  let v ← k
  if isKeyValue v then return v else throw { level, fault := .malformed }

/-- The value of the node with a number, at a level and inside the nodes with the given numbers. -/
def valueAt (g : Graph) : Nat → Nat → List Nat → Nat → Except Deep Value
  | 0, level, _, _ => .error { level, fault := .malformed }
  | fuel + 1, level, around, i =>
    let below := level + 1
    let malformedAt (level : Nat) : Except Deep Value := .error { level, fault := .malformed }
    let isMap := tagAt g i = .mapping
    if around.contains i then .ok (.loop isMap i)
    else
      let sub := valueAt g fuel below (i :: around)
      let keyAt (k : Nat) : Except Deep Value :=
        if tagAt g k = .value then
          match textAt g (g.size + 1) k with
          | some t => .ok (.text t)
          | none => .error { level := below, fault := .malformed }
        else sub k
      let entryValues (entries : List (Nat × Nat)) : Except Deep (List (Value × Value)) :=
        all (entries.map fun e => both (checkKey below (keyAt e.1)) (sub e.2))
      match tagAt g i, g[i]? with
      | .sequence, some (.sequence _ items) =>
        (all (items.map sub)).map fun vs => .list vs (some i)
      | .mapping, some (.mapping ..) =>
        match entriesAt g (g.size + 1) [] i with
        | none => malformedAt below
        | some entries =>
          (entryValues entries).map fun es =>
            .map (es.foldl (fun m e => insert m e.1 e.2) []) (some i)
      | .set, some (.mapping ..) =>
        match entriesAt g (g.size + 1) [] i with
        | none => malformedAt below
        | some entries =>
          (entryValues entries).map fun es =>
            .set (inSetOrder (es.foldl (fun s e => insertMember s e.1) []))
      | .orderedMap, some (.sequence _ items) | .pairs, some (.sequence _ items) =>
        match pairsAt g items with
        | none => malformedAt below
        | some entries =>
          (all (entries.map fun e => both (sub e.1) (sub e.2))).map fun es =>
            .list (es.map fun e => .tuple [e.1, e.2]) (some i)
      | .sequence, _ | .mapping, _ | .set, _ | .orderedMap, _ | .pairs, _ => malformedAt below
      -- other scalars take the plain value of a map, a date does not
      | .timestamp, some (.mapping ..) => malformedAt level
      | tag, _ =>
        match textAt g (g.size + 1) i with
        | some t => (scalarValue tag t).mapError fun fault => { level, fault }
        | none => malformedAt level

/-- The value of a text; nothing at all is the null value. -/
def load (source : List Char) : Except Fault Value := do
  let g ← graph source
  if g.isEmpty then return .null
  (valueAt g (g.size + 1) 0 [] 0).mapError (·.fault)

end LazyLint.Yaml
