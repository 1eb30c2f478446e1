/-!
# The shortest decimal that reads back

A binary floating point number is written with the fewest decimal digits that still read back as
that number, and of those decimals with the nearest one.  All arithmetic is exact: the number is
taken apart into `m · 2 ^ q`, and the reals that round to it form an interval whose ends are half
a unit in the last place away.  On the grid of decimals with `n` digits only the two neighbours of
the number have to be looked at.

* **`Binary`** — a positive finite number `m · 2 ^ q` with the size of its interval.
* **`Numeral`** — the digits `d` and the exponent `e` of `d · 10 ^ e`.
* **`shortest`** — the shortest decimal of a binary number.
-/

namespace WorkflowEngine.Decimal

/-- A decimal number `digits · 10 ^ exponent`. -/
structure Numeral where
  digits : Nat
  exponent : Int
  deriving Repr, DecidableEq

/-- A positive binary number `mantissa · 2 ^ exponent`.  Its lower neighbour is half as far away as
the upper one when `atPowerOfTwo` holds. -/
structure Binary where
  mantissa : Nat
  exponent : Int
  atPowerOfTwo : Bool
  deriving Repr, DecidableEq

/-- The parts of a positive finite number, from its bits. -/
def Binary.ofBits (bits : UInt64) : Binary :=
  let fraction := (bits &&& 0xFFFFFFFFFFFFF).toNat
  let field := ((bits >>> 52) &&& 0x7FF).toNat
  if field = 0 then ⟨fraction, -1074, false⟩
  else ⟨fraction + Nat.pow 2 52, (field : Int) - 1075, fraction == 0 && field != 1⟩

/-- A fraction with a positive denominator. -/
structure Fraction where
  num : Nat
  den : Nat

/-- `k · 2 ^ a · 10 ^ b` as a fraction. -/
def Fraction.scaled (k : Nat) (a b : Int) : Fraction :=
  ⟨k * Nat.pow 2 a.toNat * Nat.pow 10 b.toNat, Nat.pow 2 (-a).toNat * Nat.pow 10 (-b).toNat⟩

/-- Order of fractions. -/
def Fraction.le (x y : Fraction) : Bool := x.num * y.den ≤ y.num * x.den

/-- Strict order of fractions. -/
def Fraction.lt (x y : Fraction) : Bool := x.num * y.den < y.num * x.den

/-- The interval of the numbers that round to `b`, in quarters of its last place, and on the scale
`10 ^ -e`: the lower end, the number itself and the upper end. -/
def Binary.interval (b : Binary) (e : Int) : Fraction × Fraction × Fraction :=
  let lower := if b.atPowerOfTwo then 4 * b.mantissa - 1 else 4 * b.mantissa - 2
  (.scaled lower (b.exponent - 2) (-e), .scaled (4 * b.mantissa) (b.exponent - 2) (-e),
    .scaled (4 * b.mantissa + 2) (b.exponent - 2) (-e))

/-- Whether `d · 10 ^ e` reads back as `b`.  The ends of the interval belong to it exactly when the
mantissa is even. -/
def Binary.readsBack (b : Binary) (d : Nat) (e : Int) : Bool :=
  let (low, _, high) := b.interval e
  let x : Fraction := ⟨d, 1⟩
  if b.mantissa % 2 = 0 then low.le x && x.le high else low.lt x && x.lt high

/-- The number of decimal digits. -/
def digitCount (n : Nat) : Nat := (Nat.toDigits 10 n).length

/-- The exponent `k` with `10 ^ k ≤ b < 10 ^ (k + 1)`. -/
def Binary.magnitude (b : Binary) : Int :=
  if 0 ≤ b.exponent then (digitCount (b.mantissa * Nat.pow 2 b.exponent.toNat) : Int) - 1
  else
    let k := (-b.exponent).toNat
    let whole := b.mantissa / Nat.pow 2 k
    if whole ≠ 0 then (digitCount whole : Int) - 1
    else
      -- `m / 2 ^ k = m · 5 ^ k / 10 ^ k`
      (digitCount (b.mantissa * Nat.pow 5 k) : Int) - 1 - k

/-- The decimals with `n` digits next to `b` that read back, the nearer one first. -/
def Binary.candidate (b : Binary) (n : Nat) : Option Numeral :=
  let e := b.magnitude - (n : Int) + 1
  let (_, value, _) := b.interval e
  let below := value.num / value.den
  let remainder := value.num % value.den
  let nearBelow := 2 * remainder < value.den || (2 * remainder = value.den && below % 2 = 0)
  let first := if nearBelow then below else below + 1
  let second := if nearBelow then below + 1 else below
  if b.readsBack first e then some ⟨first, e⟩
  else if b.readsBack second e then some ⟨second, e⟩
  else none

/-- Removes trailing zeros from the digits, at most `fuel` of them. -/
def Numeral.strip (d : Numeral) : Nat → Numeral
  | 0 => d
  | fuel + 1 =>
    if d.digits ≠ 0 ∧ d.digits % 10 = 0 then
      Numeral.strip ⟨d.digits / 10, d.exponent + 1⟩ fuel
    else d

/-- The shortest decimal of a positive binary number: the first number of digits from 1 to 17 that
has a candidate.  Seventeen digits always have one. -/
def shortest (b : Binary) : Numeral :=
  let counts := (List.range 17).map (· + 1)
  match counts.findSome? b.candidate with
  | some d => d.strip 400
  | none => ⟨0, 0⟩

/-- The digits as text. -/
def Numeral.text (d : Numeral) : List Char := Nat.toDigits 10 d.digits

end WorkflowEngine.Decimal
