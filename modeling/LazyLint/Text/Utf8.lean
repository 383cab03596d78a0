import LazyLint.Text.Basic

/-!
# UTF-8

Encoding is plain. Decoding comes in two kinds: one that puts U+FFFD for every maximal part of the
input that no encoded character starts with, and one that stops at the first such part and says
what is wrong with it. Both run one automaton over the bytes.
-/

namespace LazyLint.Utf8

def encode (cs : List Char) : List UInt8 :=
  cs.flatMap String.utf8EncodeChar

/-! ## The automaton -/

/-- Where the automaton stands between two bytes. -/
inductive State where
  /-- Between two characters. -/
  | between
  /-- In a character: `more` bytes are due after the next, which lies between `low` and `high`;
  `bits` holds what the bytes so far contribute and `count` says how many they are. -/
  | within (more : Nat) (low high : UInt8) (bits : Nat) (count : Nat)
  deriving Repr, DecidableEq

/-- What one byte does. -/
inductive Step where
  /-- It completes a character. -/
  | char (c : Char)
  /-- It belongs to a character that goes on. -/
  | go (s : State)
  /-- No character starts with it. -/
  | invalid

/-- The first byte of a character. -/
def lead (b : UInt8) : Step :=
  if b < 0x80 then .char (Char.ofNat b.toNat)
  else if b < 0xC2 then .invalid
  else if b < 0xE0 then .go (.within 0 0x80 0xBF (b.toNat % 0x20) 1)
  else if b = 0xE0 then .go (.within 1 0xA0 0xBF 0 1)
  else if b = 0xED then .go (.within 1 0x80 0x9F 0xD 1)
  else if b < 0xF0 then .go (.within 1 0x80 0xBF (b.toNat % 0x10) 1)
  else if b = 0xF0 then .go (.within 2 0x90 0xBF 0 1)
  else if b < 0xF4 then .go (.within 2 0x80 0xBF (b.toNat % 8) 1)
  else if b = 0xF4 then .go (.within 2 0x80 0x8F 4 1)
  else .invalid

/-- A further byte of a character; none if it cannot belong to it. -/
def follow (more : Nat) (low high : UInt8) (bits count : Nat) (b : UInt8) : Option Step :=
  if low ≤ b && b ≤ high then
    let bits := bits * 0x40 + b.toNat % 0x40
    match more with
    | 0 => some (.char (Char.ofNat bits))
    | more + 1 => some (.go (.within more 0x80 0xBF bits (count + 1)))
  else none

/-! ## Decoding with replacement -/

/-- The character put for what cannot be decoded. -/
def replacement : Char := Char.ofNat 0xFFFD

/-- What a byte between characters leads to: the characters it completes and the next state. -/
def replaceLead (b : UInt8) : List Char × State :=
  match lead b with
  | .char c => ([c], .between)
  | .go s => ([], s)
  | .invalid => ([replacement], .between)

/-- What a byte leads to. A byte that cannot go on with a character ends it and is read anew. -/
def replaceStep (s : State) (b : UInt8) : List Char × State :=
  match s with
  | .between => replaceLead b
  | .within more low high bits count =>
    match follow more low high bits count b with
    | some (.char c) => ([c], .between)
    | some (.go s) => ([], s)
    | some .invalid | none =>
      let (cs, s) := replaceLead b
      (replacement :: cs, s)

/-- Decode from a state on. -/
def decodeFrom : State → List UInt8 → List Char
  | .between, [] => []
  | .within .., [] => [replacement]
  | s, b :: bs =>
    let (cs, s) := replaceStep s b
    cs ++ decodeFrom s bs

/-- The characters of bytes, with U+FFFD for every maximal part that is no character. -/
def decode (bs : List UInt8) : List Char :=
  decodeFrom .between bs

/-! ## Strict decoding -/

/-- Why bytes are not UTF-8. -/
inductive Fault where
  /-- A byte that starts no character. -/
  | start (position : Nat) (byte : UInt8)
  /-- A character of which `count` bytes stand at a position, the first one being `byte`, before
  one that cannot belong to it. -/
  | continuation (position count : Nat) (byte : UInt8)
  /-- The input ends after `count` bytes of a character, the first one being `byte`. -/
  | ending (count : Nat) (byte : UInt8)
  deriving Repr

/-- Strict decoding from a state on; `at_` is the position of the next byte, `first` the byte that
opened the present character. -/
def decodeStrictFrom : State → Nat → UInt8 → List UInt8 → Except Fault (List Char)
  | .between, _, _, [] => .ok []
  | .within _ _ _ _ count, _, first, [] => .error (.ending count first)
  | .between, at_, _, b :: bs =>
    match lead b with
    | .char c => (decodeStrictFrom .between (at_ + 1) b bs).map (c :: ·)
    | .go s => decodeStrictFrom s (at_ + 1) b bs
    | .invalid => .error (.start at_ b)
  | .within more low high bits count, at_, first, b :: bs =>
    match follow more low high bits count b with
    | some (.char c) => (decodeStrictFrom .between (at_ + 1) b bs).map (c :: ·)
    | some (.go s) => decodeStrictFrom s (at_ + 1) first bs
    | some .invalid | none => .error (.continuation (at_ - count) count first)

/-- The characters of bytes, if they are UTF-8. -/
def decodeStrict (bs : List UInt8) : Except Fault (List Char) :=
  decodeStrictFrom .between 0 0 bs

/-- The two hexadecimal digits of a byte. -/
def hexByte (b : UInt8) : String :=
  let digits := Nat.toDigits 16 b.toNat
  String.ofList (if digits.length < 2 then '0' :: digits else digits)

/-- The wording of a run of bytes that cannot be decoded. A character cut off by the end of the
input is placed where it starts among the bytes still held back, which is at zero. -/
def Fault.message (f : Fault) : String :=
  let run (position count : Nat) (byte : UInt8) (reason : String) : String :=
    if count = 1 then
      "'utf-8' codec can't decode byte 0x" ++ hexByte byte ++ " in position " ++
        toString position ++ ": " ++ reason
    else
      "'utf-8' codec can't decode bytes in position " ++ toString position ++ "-" ++
        toString (position + count - 1) ++ ": " ++ reason
  match f with
  | .start position byte => run position 1 byte "invalid start byte"
  | .continuation position count byte => run position count byte "invalid continuation byte"
  | .ending count byte => run 0 count byte "unexpected end of data"

/-! ## Slices -/

/-- The bytes from `start` up to `stop`. A negative end counts from the end of the bytes, and ends
out of range are cut. -/
def slice (bs : List UInt8) (start : Nat) (stop : Int) : List UInt8 :=
  let stop := if stop < 0 then (stop + bs.length).toNat else stop.toNat
  (bs.drop start).take (stop - start)

/-- The decoded text of a slice. -/
def text (bs : List UInt8) (start : Nat) (stop : Int) : Text :=
  Text.ofChars (decode (slice bs start stop))

end LazyLint.Utf8
