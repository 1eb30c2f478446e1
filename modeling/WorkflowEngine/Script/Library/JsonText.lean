import WorkflowEngine.Json.Printer
import WorkflowEngine.Script.Convert
import WorkflowEngine.Script.Exchange

/-!
# JSON text for scripts

* **`stringify`** — the text of a value: undefined values and functions are left out of objects and
  are null in arrays, and an indentation may be chosen.
* **`parseText`** — the value of a text.
-/

namespace WorkflowEngine.Script.Library

/-- A string in quotation marks; a lone half of a character is written as an escape. -/
def quotedUnits (u : Units) : Units :=
  let codes := (Units.codes u).flatMap fun n =>
    if 0xD800 ≤ n ∧ n ≤ 0xDFFF then
      ['\\', 'u', Json.hexDigit (n / 4096), Json.hexDigit (n / 256), Json.hexDigit (n / 16),
        Json.hexDigit n]
    else Json.escapeChar (Char.ofNat n)
  [34] ++ codes.flatMap (fun c => Units.ofCode c.toNat) ++ [34]

/-- How the text of a value is laid out: the text of one level, and the members that are kept. -/
structure TextLayout where
  gap : Units
  keep : Option (List Units)
  replace : Option Val

/-- A list of pieces between brackets, on one line or one a line. -/
def bracketed (gap indent : Units) (opening closing : UInt16) (pieces : List Units) : Units :=
  if pieces.isEmpty then [opening, closing]
  else if gap.isEmpty then [opening] ++ ([44] : Units).intercalate pieces ++ [closing]
  else
    let inner := [10] ++ indent ++ gap
    [opening] ++ inner ++ ([44] ++ inner : Units).intercalate pieces ++ [10] ++ indent ++ [closing]

/-- The text of a value; nothing for what has no text. -/
def stringifyAt (call : Caller) (layout : TextLayout) :
    Nat → Units → List Nat → Val → Units → Val → Run (Option Units)
  | 0, _, _, _, _, _ => throw .outOfFuel
  | fuel + 1, indent, above, holder, key, v => do
    let v ← do
      if v.isPlain then pure v
      else
        let f ← readMember v (Units.ofString "toJSON")
        if ← isCallable f then call f v [.str key] else pure v
    let v ← do
      match layout.replace with
      | some f => call f holder [.str key, v]
      | none => pure v
    if ← isCallable v then return none
    match v with
    | .undefined => return none
    | .null => return some (Units.ofString "null")
    | .bool b => return some (Units.ofString (if b then "true" else "false"))
    | .num x => return some (Units.ofString (if x.isFinite then Number.text x else "null"))
    | .str u => return some (quotedUnits u)
    | .obj r =>
      let o ← Run.object r
      match o.inside with
      | some inside =>
        stringifyAt call ⟨layout.gap, layout.keep, none⟩ fuel indent above holder key inside
      | none =>
        if above.contains r then Run.typeError "cyclic object value"
        let deeper := indent ++ layout.gap
        if o.cls == .array then
          let pieces ← o.items.toList.zipIdx.mapM fun (item, i) => do
            let text ← stringifyAt call layout fuel deeper (r :: above) v (keyOfNat i)
              (item.getD .undefined)
            return text.getD (Units.ofString "null")
          return some (bracketed layout.gap indent 91 93 pieces)
        else
          let keys := layout.keep.getD (o.keys false)
          let pieces ← keys.mapM fun k => do
            let text ← stringifyAt call layout fuel deeper (r :: above) v k
              ((o.own? k).getD .undefined)
            return text.map fun t =>
              quotedUnits k ++ (if layout.gap.isEmpty then [58] else [58, 32]) ++ t
          return some (bracketed layout.gap indent 123 125 (pieces.filterMap id))
    | _ => return some [123, 125]

/-- The indentation that an argument asks for: a number of spaces, or a text. -/
def gapOf (v : Val) : Units :=
  match v with
  | .num x => List.replicate (min 10 (wholePart x).toNat) 32
  | .str u => u.take 10
  | _ => []

/-- The text of a value. -/
def stringify (call : Caller) (args : List Val) : Run Val := do
  let second := argAt args 1
  let isFunction ← isCallable second
  let keep ← do
    match second with
    | .obj r =>
      let o ← Run.object r
      if o.cls == .array then
        pure (some (← (o.items.toList.filterMap id).mapM (toUnits call)))
      else pure none
    | _ => pure none
  let layout : TextLayout := ⟨gapOf (argAt args 2), keep, if isFunction then some second else none⟩
  match ← stringifyAt call layout 1000 [] [] .undefined [] (argAt args 0) with
  | some u => return .str u
  | none => return .undefined

/-- The value of a text. -/
def parseText (call : Caller) (args : List Val) : Run Val := do
  let text ← toUnits call (argAt args 0)
  match Json.parse? (Units.toString text) with
  | some json => importJson json
  | none => Run.raiseError .malformed "invalid JSON text"

end WorkflowEngine.Script.Library
