/-!
# The shortest decimal of a double

A finite double is `m * 2 ^ q` with naturals `m`; the reals that round to it form an interval around
it, with its ends if `m` is even. Its shortest decimal is the one with the fewest significant digits
that lies in the interval, the nearest to the double if there are several.

All arithmetic is exact: a decimal `d * 10 ^ e` is compared with the interval's ends after both are
brought to integers.
-/

namespace LazyLint.Decimal

/-- A positive finite double, or zero: `mantissa * 2 ^ exponent`. -/
structure Binary where
  mantissa : Nat
  exponent : Int
  /-- The gap below is half the gap above: the mantissa is the least one of its exponent. -/
  narrowBelow : Bool
  deriving Repr, DecidableEq

/-- The magnitude of a finite double, from the 63 bits below its sign. -/
def Binary.ofBits (bits : UInt64) : Binary :=
  let exponent : Nat := (bits.toNat / Nat.pow 2 52) % Nat.pow 2 11
  let fraction : Nat := bits.toNat % Nat.pow 2 52
  if exponent = 0 then { mantissa := fraction, exponent := -1074, narrowBelow := false }
  else
    { mantissa := Nat.pow 2 52 + fraction
      exponent := (exponent : Int) - 1075
      narrowBelow := fraction = 0 && exponent ≠ 1 }

/-- A decimal `digits * 10 ^ exponent`. -/
structure Scientific where
  digits : Nat
  exponent : Int
  deriving Repr, DecidableEq

/-- `n * b ^ e` as a fraction. -/
def scaled (n : Nat) (b : Nat) (e : Int) : Nat × Nat :=
  if 0 ≤ e then (n * Nat.pow b e.toNat, 1) else (n, Nat.pow b e.natAbs)

def ltFrac (x y : Nat × Nat) : Bool :=
  x.1 * y.2 < y.1 * x.2

def leFrac (x y : Nat × Nat) : Bool :=
  x.1 * y.2 ≤ y.1 * x.2

def distance (x y : Nat × Nat) : Nat × Nat :=
  let a := x.1 * y.2
  let b := y.1 * x.2
  ((a - b) + (b - a), x.2 * y.2)

/-- The double itself as a fraction. -/
def Binary.value (x : Binary) : Nat × Nat :=
  scaled x.mantissa 2 x.exponent

/-- Whether a decimal rounds to the double. -/
def Binary.covers (x : Binary) (d : Scientific) : Bool :=
  let v := scaled d.digits 10 d.exponent
  let low :=
    if x.narrowBelow then scaled (4 * x.mantissa - 1) 2 (x.exponent - 2)
    else scaled (2 * x.mantissa - 1) 2 (x.exponent - 1)
  let high := scaled (2 * x.mantissa + 1) 2 (x.exponent - 1)
  if x.mantissa % 2 = 0 then leFrac low v && leFrac v high
  else ltFrac low v && ltFrac v high

/-- The two neighbours of the double among the multiples of `10 ^ e`, the lower one first. -/
def Binary.neighbours (x : Binary) (e : Int) : Scientific × Scientific :=
  let (num, den) := x.value
  let q := if 0 ≤ e then num / (den * Nat.pow 10 e.toNat) else (num * Nat.pow 10 e.natAbs) / den
  ({ digits := q, exponent := e }, { digits := q + 1, exponent := e })

/-- The neighbour among the multiples of `10 ^ e` that rounds to the double: the nearer one if both
do, the even one if they are equally near. -/
def Binary.onGrid (x : Binary) (e : Int) : Option Scientific :=
  let (low, high) := x.neighbours e
  match x.covers low, x.covers high with
  | true, true =>
    let dl := distance x.value (scaled low.digits 10 e)
    let dh := distance x.value (scaled high.digits 10 e)
    if ltFrac dl dh then some low
    else if ltFrac dh dl then some high
    else if low.digits % 2 = 0 then some low else some high
  | true, false => some low
  | false, true => some high
  | false, false => none

/-- The first grid from `e` downwards that has a decimal to offer. -/
def Binary.search (x : Binary) : Nat → Int → Option Scientific
  | 0, _ => none
  | fuel + 1, e =>
    match x.onGrid e with
    | some d => if d.digits = 0 then x.search fuel (e - 1) else some d
    | none => x.search fuel (e - 1)

/-- The shortest decimal of a positive double. The search starts at a power of ten above it. -/
def Binary.shortest (x : Binary) : Scientific :=
  if x.mantissa = 0 then { digits := 0, exponent := 0 }
  else
    let bits := (Nat.log2 x.mantissa : Int) + x.exponent
    let top := bits * 30103 / 100000 + 2
    (x.search 40 top).getD { digits := 0, exponent := 0 }

end LazyLint.Decimal
