import WorkflowEngine.Decimal.Shortest

/-!
# The number nearest to a decimal

* **`nearest`** — the floating point number nearest to `digits · 10 ^ exponent`.
-/

namespace WorkflowEngine.Decimal

/-- The number nearest to `digits · 10 ^ exponent`; decimals beyond the range of numbers give zero
or infinity. -/
def nearest (digits : Nat) (exponent : Int) : Float :=
  if digits == 0 then 0
  else
    let size : Int := digitCount digits + exponent
    if size > 400 then 1.0 / 0.0
    else if size < -400 then 0
    else if 0 ≤ exponent then Float.ofScientific (digits * Nat.pow 10 exponent.toNat) false 0
    else Float.ofScientific digits true (-exponent).toNat

end WorkflowEngine.Decimal
