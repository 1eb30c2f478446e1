import WorkflowEngine.Decimal.Layout
import WorkflowEngine.Decimal.Nearest
import WorkflowEngine.Script.Units

/-!
# Numbers of scripts

The expression language has one type of numbers, binary floating point with 64 bits.  This module
holds what it needs beyond the arithmetic of the machine: whole parts and remainders in exact
arithmetic, reading numbers from strings, and writing them.

* **`whole?`** — the whole part of a finite number.
* **`remainder`** — the remainder of a division, with the sign of the dividend.
* **`toBits32`** — the number modulo `2 ^ 32`.
* **`ofUnits`**, **`parseLeading`**, **`parseRadix`** — the three readings of a string.
* **`text`**, **`textRadix`**, **`textFixed`** — the three ways of writing.
-/

namespace WorkflowEngine.Script.Number

/-- What is not a number. -/
def nan : Float := 0.0 / 0.0

/-- Infinity. -/
def infinity : Float := 1.0 / 0.0

/-- Whether the sign of a number is a minus. -/
def isNegative (x : Float) : Bool := x.toBits >>> 63 == 1

/-- A finite number as an integer times a power of two. -/
def parts (x : Float) : Int × Int :=
  let b := Decimal.Binary.ofBits (x.toBits &&& 0x7FFFFFFFFFFFFFFF)
  (if isNegative x then -b.mantissa else b.mantissa, b.exponent)

/-- The nearest number of an integer. -/
def ofInt (n : Int) : Float :=
  if 0 ≤ n then Float.ofScientific n.toNat false 0 else -(Float.ofScientific (-n).toNat false 0)

/-- The number of a natural number. -/
def ofNat (n : Nat) : Float := Float.ofScientific n false 0

/-- The whole part of a finite number. -/
def whole? (x : Float) : Option Int :=
  if !x.isFinite then none
  else
    let (m, e) := parts x
    let power : Int := Nat.pow 2 e.natAbs
    some (if 0 ≤ e then m * power else Int.tdiv m power)

/-- The remainder of `x / y` that has the sign of `x`. -/
def remainder (x y : Float) : Float :=
  if x.isNaN || y.isNaN || x.isInf || y == 0 then nan
  else if y.isInf || x == 0 then x
  else
    let (m, e) := parts x
    let (n, f) := parts y
    let low := min e f
    let a := m.natAbs * Nat.pow 2 (e - low).toNat
    let b := n.natAbs * Nat.pow 2 (f - low).toNat
    let r := a % b
    let magnitude := (ofNat r).scaleB low
    if isNegative x then -magnitude else magnitude

/-- The whole part of a number modulo `2 ^ 32`; zero for what is not finite. -/
def toBits32 (x : Float) : UInt32 :=
  match whole? x with
  | some n => UInt32.ofNat (Int.emod n 4294967296).toNat
  | none => 0

/-- The number of a word read with a sign. -/
def ofSigned32 (w : UInt32) : Float :=
  if w < 0x80000000 then ofNat w.toNat else -(ofNat (4294967296 - w.toNat))

/-- A power; unlike in plain arithmetic, one to an infinite power is not a number. -/
def power (x y : Float) : Float :=
  if y.isNaN then nan
  else if y == 0 then 1
  else if (x == 1 || x == -1) && y.isInf then nan
  else Float.pow x y

/-! ## Reading -/

/-- A digit in a base up to 36. -/
def digit? (base : Nat) (u : UInt16) : Option Nat :=
  let n := u.toNat
  let d :=
    if 48 ≤ n && n ≤ 57 then n - 48
    else if 97 ≤ n && n ≤ 122 then n - 87
    else if 65 ≤ n && n ≤ 90 then n - 55
    else 99
  if d < base then some d else none

/-- The leading digits of a string in a base, and what follows. -/
def takeDigits (base : Nat) : Units → List Nat × Units
  | [] => ([], [])
  | u :: rest =>
    match digit? base u with
    | some d => let (ds, rest) := takeDigits base rest; (d :: ds, rest)
    | none => ([], u :: rest)

/-- The natural number of a list of digits. -/
def digitsValue (base : Nat) (ds : List Nat) : Nat := ds.foldl (fun n d => n * base + d) 0

/-- A number in decimal notation without a sign at the start of a string, and what follows. -/
def takeDecimal (s : Units) : Option (Float × Units) :=
  let (whole, rest) := takeDigits 10 s
  let (fraction, rest) := match rest with
    | 46 :: after =>
      let (fraction, after') := takeDigits 10 after
      if whole.isEmpty && fraction.isEmpty then ([], rest) else (fraction, after')
    | rest => ([], rest)
  if whole.isEmpty && fraction.isEmpty then none
  else
    let (exponent, rest) : Int × Units := match rest with
      | u :: after =>
        if u == 101 || u == 69 then
          let (negative, digits) := match after with
            | 45 :: r => (true, r)
            | 43 :: r => (false, r)
            | r => (false, r)
          let (ds, after') := takeDigits 10 digits
          if ds.isEmpty then (0, rest)
          else
            let n : Int := digitsValue 10 ds
            (if negative then -n else n, after')
        else (0, rest)
      | [] => (0, [])
    some (Decimal.nearest (digitsValue 10 (whole ++ fraction)) (exponent - fraction.length), rest)

/-- A sign at the start of a string, and what follows. -/
def takeSign : Units → Bool × Units
  | 45 :: rest => (true, rest)
  | 43 :: rest => (false, rest)
  | rest => (false, rest)

/-- The word for infinity. -/
def infinityWord : Units := Units.ofString "Infinity"

/-- Reads the number at the start of a string, after blanks; what follows is ignored. -/
def parseLeading (s : Units) : Float :=
  let (negative, rest) := takeSign s.trimStart
  let magnitude :=
    if infinityWord.isPrefixOf rest then infinity
    else ((takeDecimal rest).map Prod.fst).getD nan
  if negative then -magnitude else magnitude

/-- Reads a whole string as a number: blanks count for zero, a prefix `0x`, `0o` or `0b` selects a
base. -/
def ofUnits (s : Units) : Float :=
  let s := s.trim
  if s.isEmpty then 0
  else
    let based (base : Nat) (digits : Units) : Float :=
      let (ds, rest) := takeDigits base digits
      if ds.isEmpty || !rest.isEmpty then nan else ofNat (digitsValue base ds)
    match s with
    | 48 :: 120 :: digits => based 16 digits
    | 48 :: 88 :: digits => based 16 digits
    | 48 :: 111 :: digits => based 8 digits
    | 48 :: 79 :: digits => based 8 digits
    | 48 :: 98 :: digits => based 2 digits
    | 48 :: 66 :: digits => based 2 digits
    | _ =>
      let (negative, rest) := takeSign s
      let magnitude :=
        if rest == infinityWord then infinity
        else
          match takeDecimal rest with
          | some (x, []) => x
          | _ => nan
      if negative then -magnitude else magnitude

/-- Reads the integer at the start of a string in a base; the base zero stands for ten, or sixteen
after `0x`. -/
def parseRadix (s : Units) (radix : Int) : Float :=
  let (negative, rest) := takeSign s.trimStart
  if radix != 0 && (radix < 2 || 36 < radix) then nan
  else
    let (base, rest) : Nat × Units :=
      match rest with
      | 48 :: x :: digits =>
        if (x == 120 || x == 88) && (radix == 0 || radix == 16) then (16, digits)
        else (if radix == 0 then 10 else radix.toNat, rest)
      | _ => (if radix == 0 then 10 else radix.toNat, rest)
    let (ds, _) := takeDigits base rest
    if ds.isEmpty then nan
    else
      let magnitude := ofNat (digitsValue base ds)
      if negative then -magnitude else magnitude

/-! ## Writing -/

/-- The text of a number. -/
def text (x : Float) : String := Decimal.Layout.script.write x

/-- A digit of a base up to 36. -/
def digitChar (d : Nat) : Char := Char.ofNat (if d < 10 then 48 + d else 87 + d)

/-- The digits of a natural number in a base, put before `tail`, at most `fuel` of them. -/
def wholeDigits (base : Nat) : Nat → Nat → List Char → List Char
  | 0, _, tail => tail
  | fuel + 1, n, tail =>
    if n < base then digitChar n :: tail
    else wholeDigits base fuel (n / base) (digitChar (n % base) :: tail)

/-- The digits of a fraction `n / 2 ^ k` in a base, at most `fuel` of them. -/
def fractionDigits (base k : Nat) : Nat → Nat → List Char
  | 0, _ => []
  | fuel + 1, n =>
    if n = 0 then []
    else digitChar (n * base / Nat.pow 2 k) :: fractionDigits base k fuel (n * base % Nat.pow 2 k)

/-- The text of a number in a base. -/
def textRadix (x : Float) (base : Nat) : String :=
  if base == 10 || !x.isFinite then text x
  else
    let (m, e) := parts x
    let k := (-e).toNat
    let a := m.natAbs * Nat.pow 2 e.toNat
    let whole := wholeDigits base 1100 (a / Nat.pow 2 k) []
    let fraction := fractionDigits base k 52 (a % Nat.pow 2 k)
    let body := if fraction.isEmpty then whole else whole ++ '.' :: fraction
    String.ofList (if isNegative x && m != 0 then '-' :: body else body)

/-- The text of a number with a fixed number of places; a half goes away from zero. -/
def textFixed (x : Float) (places : Nat) : String :=
  if !x.isFinite || Float.ofScientific 1 false 21 ≤ x.abs then text x
  else
    let (m, e) := parts x
    let num := m.natAbs * Nat.pow 2 e.toNat * Nat.pow 10 places
    let den := Nat.pow 2 (-e).toNat
    let n := (2 * num + den) / (2 * den)
    let ds := Nat.toDigits 10 n
    let ds := List.replicate (places + 1 - ds.length) '0' ++ ds
    let whole := ds.take (ds.length - places)
    let body := if places = 0 then whole else whole ++ '.' :: ds.drop (ds.length - places)
    String.ofList (if isNegative x && x != 0 then '-' :: body else body)

end WorkflowEngine.Script.Number
