import WorkflowEngine.Decimal.Layout

/-!
# Durations

Times are counted in nanoseconds, exactly.

* **`Duration`** — a number of nanoseconds.
* **`Duration.ofSeconds`** — from a floating point number of seconds, rounded to the nearest
  nanosecond and at a tie to the even one.
* **`Duration.text`** — with the largest unit that gives a whole part, and as many places as needed.
-/

namespace WorkflowEngine

/-- A length of time. -/
structure Duration where
  nanoseconds : Nat
  deriving Repr, DecidableEq, Inhabited

/-- Why a number of seconds is no duration. -/
inductive DurationFault where
  | negative
  | tooBig
  deriving Repr, DecidableEq

/-- The message of a fault. -/
def DurationFault.message : DurationFault → String
  | .negative => "cannot convert float seconds to Duration: value is negative"
  | .tooBig => "cannot convert float seconds to Duration: value is either too big or NaN"

namespace Duration

/-- A whole number of milliseconds. -/
def ofMilliseconds (n : Nat) : Duration := ⟨n * 1000000⟩

/-- A whole number of seconds. -/
def ofWholeSeconds (n : Nat) : Duration := ⟨n * 1000000000⟩

/-- The natural number nearest to a fraction; a tie goes to the even one. -/
def roundDiv (num den : Nat) : Nat :=
  let below := num / den
  let twice := 2 * (num % den)
  if den < twice ∨ (twice = den ∧ below % 2 = 1) then below + 1 else below

/-- The first number of seconds that is too long. -/
def secondLimit : Float := 18446744073709551616.0

/-- A floating point number of seconds. -/
def ofSeconds (x : Float) : Except DurationFault Duration :=
  if x < 0.0 then .error .negative
  else if x < secondLimit then
    let b := Decimal.Binary.ofBits (x.toBits &&& 0x7FFFFFFFFFFFFFFF)
    let f := Decimal.Fraction.scaled b.mantissa b.exponent 9
    .ok ⟨roundDiv f.num f.den⟩
  else .error .tooBig

/-- The digits of a fraction of a unit that has `places` places, without trailing zeros. -/
def fractionDigits (places n : Nat) : List Char :=
  let digits := Nat.toDigits 10 n
  let padded := List.replicate (places - digits.length) '0' ++ digits
  (padded.reverse.dropWhile (· = '0')).reverse

/-- A number of units of `10 ^ places` nanoseconds. -/
def inUnits (n places : Nat) (unit : String) : String :=
  let whole := toString (n / Nat.pow 10 places)
  let fraction := fractionDigits places (n % Nat.pow 10 places)
  if fraction.isEmpty then whole ++ unit
  else whole ++ "." ++ String.ofList fraction ++ unit

/-- The text of a duration. -/
def text (d : Duration) : String :=
  let n := d.nanoseconds
  if 1000000000 ≤ n then inUnits n 9 "s"
  else if 1000000 ≤ n then inUnits n 6 "ms"
  else if 1000 ≤ n then inUnits n 3 "µs"
  else inUnits n 0 "ns"

end Duration

end WorkflowEngine
