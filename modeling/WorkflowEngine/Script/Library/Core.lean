import WorkflowEngine.Script.Library.Arrays
import WorkflowEngine.Script.Library.JsonText
import WorkflowEngine.Script.Library.Strings

/-!
# The library of the expression language

* **`callNative`** — a call of a library function.
* **`callMaker`** — a call of a constructor, with or without `new`.
-/

namespace WorkflowEngine.Script.Library

/-! ## Numbers -/

/-- Rounds to the nearest integer, a half upwards. -/
def roundHalfUp (x : Float) : Float :=
  if !x.isFinite then x
  else
    let low := x.floor
    if x - low < 0.5 then low else low + 1

/-- The sign of a number. -/
def signOf (x : Float) : Float := if 0 < x then 1 else if x < 0 then -1 else x

/-- The greater of two numbers, and not a number when one of them is none. -/
def maxOf (x y : Float) : Float :=
  if x.isNaN || y.isNaN then Number.nan
  else if x < y then y
  else if x == y && Number.isNegative x then y
  else x

/-- The smaller of two numbers, and not a number when one of them is none. -/
def minOf (x y : Float) : Float :=
  if x.isNaN || y.isNaN then Number.nan
  else if y < x then y
  else if x == y && Number.isNegative y then y
  else x

/-- The whole part of a number as a number. -/
def truncated (x : Float) : Float := if x < 0 then x.ceil else x.floor

/-- Whether a number is whole. -/
def isWhole (x : Float) : Bool := x.isFinite && x.floor == x

/-- A function of numbers. -/
def mathFunction (name : String) (xs : List Float) : Option Float :=
  let x := xs.getD 0 Number.nan
  let y := xs.getD 1 Number.nan
  match name with
  | "abs" => some x.abs
  | "ceil" => some x.ceil
  | "floor" => some x.floor
  | "round" => some (roundHalfUp x)
  | "trunc" => some (truncated x)
  | "sign" => some (signOf x)
  | "sqrt" => some x.sqrt
  | "cbrt" => some x.cbrt
  | "exp" => some x.exp
  | "log" => some x.log
  | "log2" => some x.log2
  | "log10" => some x.log10
  | "sin" => some x.sin
  | "cos" => some x.cos
  | "tan" => some x.tan
  | "pow" => some (Number.power x y)
  | "max" => some (xs.foldl maxOf (-Number.infinity))
  | "min" => some (xs.foldl minOf Number.infinity)
  | "hypot" => some (xs.foldl (fun s x => s + x * x) 0).sqrt
  | _ => none

/-- A method of a number. -/
def numberMethod (call : Caller) (name : String) (x : Float) (args : List Val) : Run Val := do
  match name with
  | "valueOf" => return .num x
  | "toString" =>
    let base ← toPosition call (argAt args 0) 10
    if base < 2 || 36 < base then
      Run.raiseError .range "radix must be an integer at least 2 and no greater than 36"
    return .ofString (Number.textRadix x base.toNat)
  | "toFixed" =>
    let places ← toPosition call (argAt args 0) 0
    if places < 0 || 100 < places then
      Run.raiseError .range "toFixed() digits argument must be between 0 and 100"
    return .ofString (Number.textFixed x places.toNat)
  | _ => Run.typeError "not a callable function"

/-- A function that is found without an owner, or on the constructor of numbers. -/
def numberFunction (call : Caller) (name : String) (strict : Bool) (args : List Val) : Run Val := do
  let first := argAt args 0
  let isNumber := match first with
    | .num _ => true
    | _ => false
  match name with
  | "parseInt" =>
    let text ← toUnits call first
    let x ← toNumber call (argAt args 1)
    let radix := Number.ofSigned32 (Number.toBits32 x)
    return .num (Number.parseRadix text (wholePart radix))
  | "parseFloat" => return .num (Number.parseLeading (← toUnits call first))
  | _ =>
    if strict && !isNumber then return .bool false
    let x ← toNumber call first
    match name with
    | "isNaN" => return .bool x.isNaN
    | "isFinite" => return .bool x.isFinite
    | "isInteger" => return .bool (isWhole x)
    | "isSafeInteger" => return .bool (isWhole x && x.abs ≤ 9007199254740991)
    | _ => Run.typeError "not a callable function"

/-! ## Objects -/

/-- The text of an error: its name and its message. -/
def errorText (call : Caller) (v : Val) : Run Units := do
  let name ← readMember v (Units.ofString "name")
  let message ← readMember v (Units.ofString "message")
  let name ← if name.isUndefined then pure (Units.ofString "Error") else toUnits call name
  let message ← if message.isUndefined then pure [] else toUnits call message
  return if name.isEmpty then message
    else if message.isEmpty then name
    else name ++ Units.ofString ": " ++ message

/-- The text of an object without a text of its own. -/
def classText (v : Val) : Run String := do
  let word ← do
    match v with
    | .undefined => pure "Undefined"
    | .null => pure "Null"
    | .bool _ => pure "Boolean"
    | .num _ => pure "Number"
    | .str _ => pure "String"
    | .native _ _ => pure "Function"
    | .maker _ => pure "Function"
    | .methods _ => pure "Object"
    | .space .math => pure "Math"
    | .space .json => pure "JSON"
    | .space _ => pure "Object"
    | .obj r =>
      match (← Run.object r).cls with
      | .error _ => pure "Error"
      | cls => pure cls.name
  return "[object " ++ word ++ "]"

/-- A method that all objects have. -/
def objectMethod (call : Caller) (name : String) (this : Val) (args : List Val) : Run Val := do
  match name with
  | "valueOf" => return this
  | "toString" => return .ofString (← classText this)
  | "toLocaleString" => return .str (← toUnits call this)
  | "hasOwnProperty" => return .bool (← hasOwn this (← toUnits call (argAt args 0)))
  | "propertyIsEnumerable" =>
    let key ← toUnits call (argAt args 0)
    return .bool ((← ownKeys this).contains key)
  | "isPrototypeOf" =>
    match this, argAt args 0 with
    | .obj p, .obj r => return .bool ((← Run.object r).parent == some p)
    | _, _ => return .bool false
  | _ => Run.typeError "not a callable function"

/-- The own members of a value as pairs. -/
def entriesOf (v : Val) : Run (List (Units × Val)) := do
  (← ownKeys v).mapM fun k => return (k, ← readMember v k)

/-- A function of the constructor of objects. -/
def objectFunction (call : Caller) (name : String) (args : List Val) : Run Val := do
  let first := argAt args 0
  match name with
  | "keys" => Run.arrayOf ((← ownKeys first).map .str)
  | "getOwnPropertyNames" =>
    match first with
    | .obj r =>
      let o ← Run.object r
      let length := if o.cls == .array then [Val.ofString "length"] else []
      Run.arrayOf ((o.keys true).map .str ++ length)
    | v => Run.arrayOf ((← ownKeys v).map .str)
  | "values" => Run.arrayOf ((← entriesOf first).map Prod.snd)
  | "entries" =>
    Run.arrayOf (← (← entriesOf first).mapM fun (k, v) => Run.arrayOf [.str k, v])
  | "assign" =>
    for source in args.drop 1 do
      match source with
      | .undefined => pure ()
      | .null => pure ()
      | _ =>
        for (k, v) in ← entriesOf source do
          writeMember first k v
    return first
  | "fromEntries" =>
    let result ← Run.alloc (Obj.plain .object)
    for pair in ← itemsOf call first do
      let k ← readMember (filled pair) (keyOfNat 0)
      let v ← readMember (filled pair) (keyOfNat 1)
      writeMember result (← toUnits call k) v
    return result
  | "create" =>
    let parent := match first with
      | .obj r => some r
      | _ => none
    Run.alloc { Obj.plain .object with parent := parent }
  | "getPrototypeOf" =>
    match first with
    | .obj r =>
      let o ← Run.object r
      return match o.parent with
        | some p => .obj p
        | none => .methods o.cls
    | _ => return .null
  | "freeze" => return first
  | "isFrozen" => return .bool first.isPlain
  | "is" =>
    return .bool <| match first, argAt args 1 with
      | .num x, .num y => x.toBits == y.toBits || (x.isNaN && y.isNaN)
      | a, b => strictEqual a b
  | _ => Run.typeError "not a callable function"

/-- A function of the constructor of arrays. -/
def arrayFunction (call : Caller) (name : String) (args : List Val) : Run Val := do
  match name with
  | "isArray" =>
    match argAt args 0 with
    | .obj r => return .bool ((← Run.object r).cls == .array)
    | _ => return .bool false
  | "of" => Run.arrayOf args
  | "from" =>
    let items ← itemsOf call (argAt args 0)
    let f := argAt args 1
    if f.isUndefined then Run.arrayOf (items.map filled)
    else
      Run.arrayOf (← items.zipIdx.mapM fun (item, i) => call f .undefined [filled item, .ofNat i])
  | _ => Run.typeError "not a callable function"

/-- A function of the constructor of strings. -/
def stringFunction (call : Caller) (name : String) (args : List Val) : Run Val := do
  let codes ← args.mapM (toNumber call)
  match name with
  | "fromCharCode" =>
    return .str (codes.map fun x => UInt16.ofNat (Number.toBits32 x).toNat)
  | "fromCodePoint" =>
    if codes.any fun x => !(isWhole x && 0 ≤ x && x ≤ 0x10FFFF) then
      Run.raiseError .range "invalid code point"
    return .str (codes.flatMap fun x => Units.ofCode (wholePart x).toNat)
  | _ => Run.typeError "not a callable function"

/-! ## Calls -/

/-- The plain value inside a value of a class; another value is not accepted. -/
def insideOf (cls : Class) (this : Val) : Run Val := do
  let v ← do
    match this with
    | .obj r => pure (((← Run.object r).inside).getD this)
    | v => pure v
  match cls, v with
  | .string, .str u => return .str u
  | .number, .num x => return .num x
  | .boolean, .bool b => return .bool b
  | _, _ => Run.typeError "'this' is of the wrong type"

/-- A method of a function. -/
def functionMethod (call : Caller) (name : String) (this : Val) (args : List Val) : Run Val := do
  match name with
  | "call" => call this (argAt args 0) (args.drop 1)
  | "apply" =>
    let items ← do
      match argAt args 1 with
      | .undefined => pure []
      | .null => pure []
      | v => itemsOf call v
    call this (argAt args 0) (items.map filled)
  | "bind" =>
    requireFunction this
    Run.alloc { Obj.plain .function with
      callable := some (.bound this (argAt args 0) (args.drop 1)) }
  | "toString" => return .ofString "function () \x7b [native code] \x7d"
  | _ => Run.typeError "not a callable function"

/-- A call of a library function. -/
def callNative (call : Caller) (owner : Owner) (name : String) (this : Val) (args : List Val) :
    Run Val := do
  match owner with
  | .instance_ .string =>
    match this with
    | .undefined => Run.typeError "cannot convert 'null' or 'undefined' to object"
    | .null => Run.typeError "cannot convert 'null' or 'undefined' to object"
    | _ => stringMethod call name (← toUnits call this) args
  | .instance_ .array => arrayMethod call name this args
  | .instance_ .number =>
    match ← insideOf .number this with
    | .num x => numberMethod call name x args
    | _ => return .undefined
  | .instance_ .boolean =>
    let b ← insideOf .boolean this
    return if name == "toString" then .ofString (plainText b) else b
  | .instance_ .function => functionMethod call name this args
  | .instance_ (.error _) => return .str (← errorText call this)
  | .instance_ .object => objectMethod call name this args
  | .static .object => objectFunction call name args
  | .static .array => arrayFunction call name args
  | .static .string => stringFunction call name args
  | .static .number => numberFunction call name true args
  | .static _ => Run.typeError "not a callable function"
  | .math =>
    let xs ← args.mapM (toNumber call)
    match mathFunction name xs with
    | some x => return .num x
    | none => Run.typeError "not a callable function"
  | .json => if name == "stringify" then stringify call args else parseText call args
  | .global => numberFunction call name false args

/-- A call of a constructor. -/
def callMaker (call : Caller) (cls : Class) (isNew : Bool) (args : List Val) : Run Val := do
  let first := argAt args 0
  let wrapped (v : Val) : Run Val := do
    if isNew then Run.alloc { Obj.plain cls with inside := some v } else return v
  match cls with
  | .object =>
    match first with
    | .undefined => Run.alloc (Obj.plain .object)
    | .null => Run.alloc (Obj.plain .object)
    | .str u => Run.alloc { Obj.plain .string with inside := some (.str u) }
    | .num x => Run.alloc { Obj.plain .number with inside := some (.num x) }
    | .bool b => Run.alloc { Obj.plain .boolean with inside := some (.bool b) }
    | v => return v
  | .array =>
    match args with
    | [.num x] =>
      match Number.whole? x with
      | some n =>
        if 0 ≤ n && n ≤ widestArray && Number.ofInt n == x then
          Run.newArray (List.replicate n.toNat none)
        else Run.raiseError .range "invalid array length"
      | none => Run.raiseError .range "invalid array length"
    | _ => Run.arrayOf args
  | .string => wrapped (.str (← if args.isEmpty then pure [] else toUnits call first))
  | .number => wrapped (.num (← if args.isEmpty then pure 0 else toNumber call first))
  | .boolean => wrapped (.bool (truthy first))
  | .function => Run.raiseError .evaluation "functions cannot be made from text"
  | .error kind =>
    let props ← do
      if first.isUndefined then pure []
      else pure [(Units.ofString "message", (⟨.str (← toUnits call first), true⟩ : Slot))]
    Run.alloc { Obj.plain (.error kind) with props := props }

end WorkflowEngine.Script.Library
