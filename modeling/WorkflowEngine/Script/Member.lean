import WorkflowEngine.Script.Machine

/-!
# Variables and members

* **`readVar?`**, **`assignVar`**, **`declareVar`** — variables.
* **`readMember`**, **`writeMember`** — members of any value.  A member is looked for on the object,
  on the objects behind it, and last among the library functions of its class.
-/

namespace WorkflowEngine.Script

/-! ## Variables -/

/-- The innermost scope that declares a name, starting from a scope. -/
def scopeOf? (m : Machine) (name : String) : Nat → Nat → Option Nat
  | 0, _ => none
  | fuel + 1, s =>
    match m.scopes[s]? with
    | none => none
    | some scope =>
      if scope.vars.any (·.1 == name) then some s
      else scope.parent.bind (scopeOf? m name fuel)

/-- The variable of a name in a scope. -/
def bindingIn? (scope : Scope) (name : String) : Option Binding :=
  (scope.vars.find? (·.1 == name)).map Prod.snd

/-- Stores a variable in a list of variables. -/
def storeBinding (vars : List (String × Binding)) (name : String) (b : Binding) :
    List (String × Binding) :=
  match vars with
  | [] => [(name, b)]
  | (n, old) :: rest => if n == name then (n, b) :: rest else (n, old) :: storeBinding rest name b

/-- Sets a variable of a scope, declaring it if needed. -/
def declareVar (scope : Nat) (name : String) (b : Binding) : Run Unit :=
  modify fun m => { m with
    scopes := m.scopes.modify scope fun s => { s with vars := storeBinding s.vars name b } }

/-- The global values that the language provides. -/
def globalValue? (name : String) : Option Val :=
  match name with
  | "undefined" => some .undefined
  | "NaN" => some (.num Number.nan)
  | "Infinity" => some (.num Number.infinity)
  | "Object" => some (.maker .object)
  | "Array" => some (.maker .array)
  | "String" => some (.maker .string)
  | "Number" => some (.maker .number)
  | "Boolean" => some (.maker .boolean)
  | "Function" => some (.maker .function)
  | "Error" => some (.maker (.error .plain))
  | "TypeError" => some (.maker (.error .type))
  | "RangeError" => some (.maker (.error .range))
  | "SyntaxError" => some (.maker (.error .malformed))
  | "ReferenceError" => some (.maker (.error .reference))
  | "EvalError" => some (.maker (.error .evaluation))
  | "URIError" => some (.maker (.error .address))
  | "Math" => some (.space .math)
  | "JSON" => some (.space .json)
  | "globalThis" => some (.space .global)
  | "parseInt" => some (.native .global "parseInt")
  | "parseFloat" => some (.native .global "parseFloat")
  | "isNaN" => some (.native .global "isNaN")
  | "isFinite" => some (.native .global "isFinite")
  | _ => none

/-- The value of a variable; nothing when no scope declares it. -/
def readVar? (scope : Nat) (name : String) : Run (Option Val) := do
  let m ← get
  match scopeOf? m name (m.scopes.size + 1) scope with
  | none => return globalValue? name
  | some s =>
    match (m.scopes[s]?.bind (bindingIn? · name)).bind (·.value) with
    | some v => return some v
    | none =>
      Run.raiseError .reference ("access of uninitialized binding")

/-- The names that cannot be assigned and keep their value. -/
def fixedNames : List String := ["undefined", "NaN", "Infinity"]

/-- Assigns a variable; one that no scope declares becomes a global variable. -/
def assignVar (scope : Nat) (name : String) (v : Val) : Run Unit := do
  let m ← get
  match scopeOf? m name (m.scopes.size + 1) scope with
  | none => if fixedNames.contains name then return () else declareVar 0 name ⟨some v, false⟩
  | some s =>
    match m.scopes[s]?.bind (bindingIn? · name) with
    | some ⟨none, _⟩ => Run.raiseError .reference ("access of uninitialized binding")
    | some ⟨some _, true⟩ => Run.typeError ("cannot re-assign const binding")
    | _ => declareVar s name ⟨some v, false⟩

/-! ## Library members -/

/-- The names of the functions of an owner. -/
def Owner.names : Owner → List String
  | .instance_ .object =>
    ["hasOwnProperty", "isPrototypeOf", "propertyIsEnumerable", "toString", "toLocaleString",
      "valueOf"]
  | .instance_ .array =>
    ["at", "concat", "every", "fill", "filter", "find", "findIndex", "flat", "flatMap", "forEach",
      "includes", "indexOf", "join", "lastIndexOf", "map", "pop", "push", "reduce", "reduceRight",
      "reverse", "shift", "slice", "some", "sort", "splice", "toString", "unshift"]
  | .instance_ .string =>
    ["at", "charAt", "charCodeAt", "codePointAt", "concat", "endsWith", "includes", "indexOf",
      "lastIndexOf", "localeCompare", "padEnd", "padStart", "repeat", "replace", "replaceAll",
      "slice", "split", "startsWith", "substr", "substring", "toLowerCase", "toString",
      "toUpperCase", "trim", "trimEnd", "trimStart", "valueOf"]
  | .instance_ .number => ["toFixed", "toString", "valueOf"]
  | .instance_ .boolean => ["toString", "valueOf"]
  | .instance_ .function => ["apply", "bind", "call", "toString"]
  | .instance_ (.error _) => ["toString"]
  | .static .object =>
    ["assign", "create", "entries", "freeze", "fromEntries", "getOwnPropertyNames",
      "getPrototypeOf", "is", "isFrozen", "keys", "values"]
  | .static .array => ["from", "isArray", "of"]
  | .static .string => ["fromCharCode", "fromCodePoint"]
  | .static .number =>
    ["isFinite", "isInteger", "isNaN", "isSafeInteger", "parseFloat", "parseInt"]
  | .static _ => []
  | .math =>
    ["abs", "cbrt", "ceil", "cos", "exp", "floor", "hypot", "log", "log10", "log2", "max", "min",
      "pow", "round", "sign", "sin", "sqrt", "tan", "trunc"]
  | .json => ["parse", "stringify"]
  | .global => ["parseFloat", "parseInt", "isNaN", "isFinite"]

/-- A library function of an owner. -/
def Owner.member? (o : Owner) (name : String) : Option Val :=
  if o.names.contains name then some (.native o name) else none

/-- The number constants of the library. -/
def constant? : Owner → String → Option Val
  | .math, "PI" => some (.num 3.141592653589793)
  | .math, "E" => some (.num 2.718281828459045)
  | .math, "LN2" => some (.num 0.6931471805599453)
  | .math, "LN10" => some (.num 2.302585092994046)
  | .math, "SQRT2" => some (.num 1.4142135623730951)
  | .static .number, "MAX_SAFE_INTEGER" => some (.num 9007199254740991)
  | .static .number, "MIN_SAFE_INTEGER" => some (.num (-9007199254740991))
  | .static .number, "MAX_VALUE" => some (.num 1.7976931348623157e308)
  | .static .number, "EPSILON" => some (.num 2.220446049250313e-16)
  | .static .number, "POSITIVE_INFINITY" => some (.num Number.infinity)
  | .static .number, "NEGATIVE_INFINITY" => some (.num (-Number.infinity))
  | .static .number, "NaN" => some (.num Number.nan)
  | _, _ => none

/-- A library member of the instances of a class: its own, then those of all objects. -/
def classMember? (cls : Class) (name : String) : Option Val :=
  match cls, name with
  | .error kind, "name" => some (.str (Units.ofString kind.name))
  | .error _, "message" => some (.str [])
  | _, "constructor" => some (.maker cls)
  | _, _ =>
    ((Owner.instance_ cls).member? name).or ((Owner.instance_ .object).member? name)

/-! ## Members -/

/-- An own member of an object. -/
def Obj.own? (o : Obj) (key : Units) : Option Val :=
  let indexed :=
    match position? key with
    | none => none
    | some i =>
      match o.cls, o.inside with
      | .array, _ => o.items[i]?.join
      | _, some (.str u) => (u[i]?).map fun unit => .str [unit]
      | _, _ => none
  let named :=
    if key == Units.ofString "length" then
      match o.cls, o.inside with
      | .array, _ => some (.num (Number.ofNat o.items.size))
      | _, some (.str u) => some (.num (Number.ofNat u.length))
      | _, _ => none
    else none
  (indexed.or named).or ((findSlot o.props key).map (·.value))

/-- A member of an object or of the objects behind it, at most `fuel` of them; with the class of the
last one when there is none. -/
def lookup (m : Machine) (key : Units) : Nat → Nat → Except Class Val
  | 0, _ => .error .object
  | fuel + 1, place =>
    match m.objects[place]? with
    | none => .error .object
    | some o =>
      match o.own? key with
      | some v => .ok v
      | none =>
        match o.parent with
        | some p => lookup m key fuel p
        | none => .error o.cls

/-- The name and the number of parameters of a function of the script. -/
def functionMember? (o : Obj) (name : String) : Option Val :=
  match o.callable, name with
  | some (.closure f _ _), "name" => some (.str (Units.ofString f.name))
  | some (.closure f _ _), "length" => some (.num (Number.ofNat f.params.length))
  | _, _ => none

/-- The value of a member of a value. -/
def readMember (target : Val) (key : Units) : Run Val := do
  let name := Units.toString key
  match target with
  | .undefined => Run.typeError "cannot convert 'null' or 'undefined' to object"
  | .null => Run.typeError "cannot convert 'null' or 'undefined' to object"
  | .bool _ => return (classMember? .boolean name).getD .undefined
  | .num _ => return (classMember? .number name).getD .undefined
  | .str u =>
    match ({ Obj.plain .string with inside := some (.str u) } : Obj).own? key with
    | some v => return v
    | none => return (classMember? .string name).getD .undefined
  | .obj r =>
    let m ← get
    match lookup m key (m.objects.size + 1) r with
    | .ok v => return v
    | .error cls =>
      let o ← Run.object r
      return ((functionMember? o name).or (classMember? cls name)).getD .undefined
  | .native _ n =>
    if name == "name" then return .str (Units.ofString n)
    return (classMember? .function name).getD .undefined
  | .maker cls =>
    if name == "prototype" then return .methods cls
    if name == "name" then return .str (Units.ofString cls.name)
    return (((Owner.static cls).member? name).or (constant? (.static cls) name)).or
      (classMember? .function name) |>.getD .undefined
  | .methods cls => return (classMember? cls name).getD .undefined
  | .space .global => return (← readVar? 0 name).getD .undefined
  | .space o =>
    return ((o.member? name).or (constant? o name)).or (classMember? .object name)
      |>.getD .undefined

/-- The greatest position up to which an array is filled with gaps. -/
def widestArray : Nat := 16777216

/-- Sets a member of an object. -/
def Obj.store (o : Obj) (key : Units) (v : Val) : Obj :=
  match o.cls, position? key with
  | .array, some i =>
    if i < o.items.size then { o with items := o.items.set! i (some v) }
    else if i < widestArray then
      { o with items := (o.items ++ Array.replicate (i - o.items.size) none).push (some v) }
    else { o with props := storeSlot o.props key v }
  | _, _ => { o with props := storeSlot o.props key v }

/-- Cuts an array off at a length, or fills it up with gaps. -/
def Obj.resize (o : Obj) (n : Nat) : Obj :=
  if n ≤ o.items.size then { o with items := o.items.extract 0 n }
  else { o with items := o.items ++ Array.replicate (n - o.items.size) none }

/-- Sets a member of a value.  A member of a plain value is lost. -/
def writeMember (target : Val) (key : Units) (v : Val) : Run Unit := do
  match target with
  | .undefined => Run.typeError "cannot convert 'null' or 'undefined' to object"
  | .null => Run.typeError "cannot convert 'null' or 'undefined' to object"
  | .obj r =>
    let o ← Run.object r
    if o.cls == .array && key == Units.ofString "length" then
      match v with
      | .num x =>
        match Number.whole? x with
        | some n =>
          if 0 ≤ n && n ≤ widestArray && x == Number.ofInt n then
            Run.update r (·.resize n.toNat)
          else Run.raiseError .range "invalid array length"
        | none => Run.raiseError .range "invalid array length"
      | _ => Run.raiseError .range "invalid array length"
    else Run.update r (·.store key v)
  | .space .global => assignVar 0 (Units.toString key) v
  | _ => return ()

/-- Removes an own member of an object. -/
def eraseMember (target : Val) (key : Units) : Run Unit := do
  match target with
  | .obj r =>
    Run.update r fun o =>
      match o.cls, position? key with
      | .array, some i =>
        if i < o.items.size then { o with items := o.items.set! i none } else o
      | _, _ => { o with props := o.props.filter (·.1 != key) }
  | .undefined => Run.typeError "cannot convert 'null' or 'undefined' to object"
  | .null => Run.typeError "cannot convert 'null' or 'undefined' to object"
  | _ => return ()

/-- Whether a value has an own member. -/
def hasOwn (target : Val) (key : Units) : Run Bool := do
  match target with
  | .obj r => return ((← Run.object r).own? key).isSome
  | .str u =>
    return (({ Obj.plain .string with inside := some (.str u) } : Obj).own? key).isSome
  | .maker cls =>
    return (((Owner.static cls).member? (Units.toString key))).isSome
  | .methods cls => return ((Owner.instance_ cls).member? (Units.toString key)).isSome
  | .space o => return (o.member? (Units.toString key)).isSome
  | _ => return false

/-- The keys that a loop over the members of a value visits: those of the object, then new ones of
the objects behind it. -/
def visibleKeys (m : Machine) (known : List Units) : Nat → Nat → List Units
  | 0, _ => known
  | fuel + 1, place =>
    match m.objects[place]? with
    | none => known
    | some o =>
      let known := known ++ (o.keys false).filter fun k => !known.contains k
      match o.parent with
      | some p => visibleKeys m known fuel p
      | none => known

/-- The keys of the own members of a value that are not hidden. -/
def ownKeys (v : Val) : Run (List Units) := do
  match v with
  | .obj r => return (← Run.object r).keys false
  | .str u => return (List.range u.length).map keyOfNat
  | .undefined => Run.typeError "cannot convert 'null' or 'undefined' to object"
  | .null => Run.typeError "cannot convert 'null' or 'undefined' to object"
  | _ => return []

end WorkflowEngine.Script
