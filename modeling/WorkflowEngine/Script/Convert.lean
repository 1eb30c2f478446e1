import WorkflowEngine.Script.Member

/-!
# Conversions between the types of scripts

An object is converted by its own methods `valueOf` and `toString`, which the script may define, so
conversions take the function that calls functions, **`Caller`**.

* **`toPrimitive`**, **`toNumber`**, **`toUnits`** — conversions.
* **`looselyEqual`** — equality with conversion.
* **`toPosition`**, **`toCount`** — whole numbers for the library.
-/

namespace WorkflowEngine.Script

/-- Calls a function with `this` and arguments. -/
abbrev Caller := Val → Val → List Val → Run Val

/-- Whether a value is neither an object nor a function. -/
def Val.isPlain : Val → Bool
  | .undefined => true
  | .null => true
  | .bool _ => true
  | .num _ => true
  | .str _ => true
  | _ => false

/-- A string value. -/
def Val.ofString (s : String) : Val := .str (Units.ofString s)

/-- A number value. -/
def Val.ofNat (n : Nat) : Val := .num (Number.ofNat n)

/-- A number value. -/
def Val.ofInt (n : Int) : Val := .num (Number.ofInt n)

/-- The plain value of a value: objects are asked for their `valueOf` and `toString`, in this order,
or in the other when a text is wanted. -/
def toPrimitive (call : Caller) (text : Bool) (v : Val) : Run Val := do
  if v.isPlain then return v
  let ask (name : String) : Run (Option Val) := do
    let f ← readMember v (Units.ofString name)
    if ← isCallable f then
      let r ← call f v []
      return if r.isPlain then some r else none
    else return none
  let (first, second) := if text then ("toString", "valueOf") else ("valueOf", "toString")
  match ← ask first with
  | some r => return r
  | none =>
    match ← ask second with
    | some r => return r
    | none => Run.typeError "cannot convert object to primitive value"

/-- The number of a plain value. -/
def plainNumber : Val → Float
  | .undefined => Number.nan
  | .null => 0
  | .bool b => if b then 1 else 0
  | .num x => x
  | .str u => Number.ofUnits u
  | _ => Number.nan

/-- The text of a plain value. -/
def plainText : Val → String
  | .undefined => "undefined"
  | .null => "null"
  | .bool b => if b then "true" else "false"
  | .num x => Number.text x
  | .str u => Units.toString u
  | _ => ""

/-- The string of a plain value. -/
def plainUnits : Val → Units
  | .str u => u
  | v => Units.ofString (plainText v)

/-- The number of a value. -/
def toNumber (call : Caller) (v : Val) : Run Float := do
  return plainNumber (← toPrimitive call false v)

/-- The string of a value. -/
def toUnits (call : Caller) (v : Val) : Run Units := do
  return plainUnits (← toPrimitive call true v)

/-- Equality of plain values with conversion, and of objects by identity. -/
def plainLooselyEqual (a b : Val) : Bool :=
  match a, b with
  | .undefined, .null => true
  | .null, .undefined => true
  | .undefined, b => strictEqual .undefined b
  | .null, b => strictEqual .null b
  | _, .undefined => false
  | _, .null => false
  | .str x, .str y => x == y
  | a, b => if a.isPlain && b.isPlain then plainNumber a == plainNumber b else strictEqual a b

/-- Equality with conversion: an object that meets a plain value other than null and undefined is
converted. -/
def looselyEqual (call : Caller) (a b : Val) : Run Bool := do
  let nothing : Val → Bool := fun
    | .undefined => true
    | .null => true
    | _ => false
  if a.isPlain == b.isPlain || nothing a || nothing b then return plainLooselyEqual a b
  return plainLooselyEqual (← toPrimitive call false a) (← toPrimitive call false b)

/-- The whole part of a number, zero for what is not a number, limited to a range that covers all
lengths. -/
def wholePart (x : Float) : Int :=
  match Number.whole? x with
  | some n => max (-9007199254740992) (min 9007199254740992 n)
  | none => if x.isNaN then 0 else if Number.isNegative x then -9007199254740992 else 9007199254740992

/-- An argument of a call. -/
def argAt (args : List Val) (i : Nat) : Val := args.getD i .undefined

/-- Whether a value is undefined. -/
def Val.isUndefined : Val → Bool
  | .undefined => true
  | _ => false

/-- The whole part of an argument, or a default when it is undefined. -/
def toPosition (call : Caller) (v : Val) (default_ : Int) : Run Int := do
  if v.isUndefined then return default_
  return wholePart (← toNumber call v)

/-- A position in a sequence of some length, where negative positions count from the end. -/
def fromEnd (length : Nat) (i : Int) : Nat :=
  if i < 0 then (length + i).toNat else min i.toNat length

/-- A position in a sequence of some length, where negative positions are the start. -/
def clamp (length : Nat) (i : Int) : Nat := min i.toNat length

end WorkflowEngine.Script
