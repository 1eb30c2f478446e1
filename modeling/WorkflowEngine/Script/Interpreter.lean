import WorkflowEngine.Script.Library.Core

/-!
# Running scripts

Expressions and statements are evaluated by functions that take the evaluation one level deeper as
an argument, **`Deeper`**; the evaluation at a depth is then defined by recursion on the depth.
Loops are bounded separately, by the number of their rounds.

* **`evalStep`**, **`execStep`**, **`callStep`** — one level of evaluation.
* **`evalAt`**, **`execAt`**, **`callAt`** — evaluation up to a depth.
* **`runProgram`** — the value of a script.
-/

namespace WorkflowEngine.Script

open Library

/-- The place of an evaluation: its scope, and what `this` means. -/
structure Place where
  scope : Nat
  this : Val

/-- How a statement ends. -/
inductive Completion where
  /-- It ran to its end; a statement that is an expression has a value. -/
  | done (v : Option Val)
  /-- A loop or a labelled statement is left. -/
  | exit (label : Option String)
  /-- The next round of a loop begins. -/
  | next (label : Option String)
  /-- The function gives a value. -/
  | give (v : Val)

/-- The evaluation one level deeper. -/
structure Deeper where
  eval : Place → Expr → Run Val
  exec : Place → Stmt → Run Completion
  call : Caller

/-! ## Operators -/

/-- An operator on the 32-bit words of two numbers. -/
def onWords (f : UInt32 → UInt32 → UInt32) (x y : Float) : Val :=
  .num (Number.ofSigned32 (f (Number.toBits32 x) (Number.toBits32 y)))

/-- A word shifted to the right, filled with its sign. -/
def shiftSigned (a b : UInt32) : UInt32 :=
  let k := b % 32
  if a < 0x80000000 then a >>> k
  else ~~~((~~~a) >>> k)

/-- Order of plain values: by units when both are strings, else by number. -/
def plainLess (a b : Val) : Option Bool :=
  match a, b with
  | .str x, .str y => some (x.less y)
  | a, b =>
    let x := plainNumber a
    let y := plainNumber b
    if x.isNaN || y.isNaN then none else some (x < y)

/-- Whether a value was made by a constructor. -/
def instanceOf (v maker : Val) : Run Bool := do
  match maker with
  | .maker cls =>
    let own := match v with
      | .obj r => do return some (← Run.object r)
      | _ => pure (none : Option Obj)
    match ← own with
    | none => return cls == .object && !v.isPlain
    | some o =>
      return match cls with
        | .object => true
        | .error .plain => match o.cls with
          | .error _ => true
          | _ => false
        | cls => o.cls == cls
  | .obj f =>
    if !(← isCallable maker) then Run.typeError "right-hand side of 'instanceof' is not callable"
    let shape ← readMember maker (Units.ofString "prototype")
    let m ← get
    let rec behind : Nat → Option Nat → Bool
      | 0, _ => false
      | _, none => false
      | fuel + 1, some p =>
        strictEqual (.obj p) shape || behind fuel ((m.objects[p]?).bind (·.parent))
    match v with
    | .obj r => return behind (m.objects.size + 1) ((m.objects[r]?).bind (·.parent))
    | _ => let _ := f; return false
  | _ => Run.typeError "right-hand side of 'instanceof' should be an object"

/-- An operator on two values. -/
def applyBinary (call : Caller) (op : BinaryOp) (a b : Val) : Run Val := do
  let numbers (f : Float → Float → Val) : Run Val := do
    let x ← toNumber call a
    let y ← toNumber call b
    return f x y
  let ordered (swap : Bool) (f : Option Bool → Bool) : Run Val := do
    let x ← toPrimitive call false a
    let y ← toPrimitive call false b
    return .bool (f (if swap then plainLess y x else plainLess x y))
  match op with
  | .add =>
    let x ← toPrimitive call false a
    let y ← toPrimitive call false b
    match x, y with
    | .str u, y => return .str (u ++ plainUnits y)
    | x, .str u => return .str (plainUnits x ++ u)
    | x, y => return .num (plainNumber x + plainNumber y)
  | .sub => numbers fun x y => .num (x - y)
  | .mul => numbers fun x y => .num (x * y)
  | .div => numbers fun x y => .num (x / y)
  | .rem => numbers fun x y => .num (Number.remainder x y)
  | .pow => numbers fun x y => .num (Number.power x y)
  | .less => ordered false (· == some true)
  | .greater => ordered true (· == some true)
  | .lessEq => ordered true (· == some false)
  | .greaterEq => ordered false (· == some false)
  | .equal => return .bool (← looselyEqual call a b)
  | .notEqual => return .bool (!(← looselyEqual call a b))
  | .same => return .bool (strictEqual a b)
  | .notSame => return .bool (!strictEqual a b)
  | .bitAnd => numbers (onWords (· &&& ·))
  | .bitOr => numbers (onWords (· ||| ·))
  | .bitXor => numbers (onWords (· ^^^ ·))
  | .shiftLeft => numbers (onWords fun x y => x <<< (y % 32))
  | .shiftRight => numbers (onWords shiftSigned)
  | .shiftRightZero =>
    numbers fun x y =>
      .num (Number.ofNat (Number.toBits32 x >>> (Number.toBits32 y % 32)).toNat)
  | .within =>
    if b.isPlain then Run.typeError "right-hand side of 'in' should be an object"
    let key ← toUnits call a
    match b with
    | .obj r =>
      let m ← get
      return .bool (lookup m key (m.objects.size + 1) r).isOk
    | v => return .bool (← hasOwn v key)
  | .instanceOf => return .bool (← instanceOf a b)

/-! ## Variables of a function -/

mutual

/-- The names that the statements of a function declare for the whole function. -/
def functionNames : List Stmt → List String
  | [] => []
  | s :: rest => functionNamesOf s ++ functionNames rest

/-- The names that a statement declares for the whole function. -/
def functionNamesOf : Stmt → List String
  | .declare .function names => names.map Prod.fst
  | .block body => functionNames body
  | .ifElse _ yes no => functionNamesOf yes ++ functionNamesOf no
  | .loop start _ _ body => functionNamesOf start ++ functionNamesOf body
  | .forIn (some .function) (.ident n) _ _ body => n :: functionNamesOf body
  | .forIn _ _ _ _ body => functionNamesOf body
  | .whileLoop _ body => functionNamesOf body
  | .doWhile body _ => functionNamesOf body
  | .attempt body handler last =>
    functionNames body
      ++ (match handler with
        | some (_, b) => functionNames b
        | none => [])
      ++ (match last with
        | some b => functionNames b
        | none => [])
  | .choose _ cases => caseNames cases
  | .labelled _ s => functionNamesOf s
  | _ => []

/-- The names that the cases of a choice declare for the whole function. -/
def caseNames : List (Option Expr × List Stmt) → List String
  | [] => []
  | (_, body) :: rest => functionNames body ++ caseNames rest

end

/-- A new function object with an object for its instances. -/
def newFunction (place : Place) (f : Function) : Run Val := do
  let v ← Run.alloc { Obj.plain .function with
    callable := some (.closure f place.scope place.this) }
  if !f.isArrow then
    let shape ← Run.alloc { Obj.plain .object with
      props := [(Units.ofString "constructor", ⟨v, true⟩)] }
    match v with
    | .obj r =>
      Run.update r fun o => { o with props := [(Units.ofString "prototype", ⟨shape, true⟩)] }
    | _ => pure ()
  return v

/-- Declares the variables of a block that have no value before their declaration runs, and the
functions of the block. -/
def enterBlock (place : Place) (body : List Stmt) : Run Unit := do
  for s in body do
    match s with
    | .declare .block names =>
      for (n, _) in names do declareVar place.scope n ⟨none, false⟩
    | .declare .constant names =>
      for (n, _) in names do declareVar place.scope n ⟨none, true⟩
    | .function n f =>
      let v ← newFunction place f
      declareVar place.scope n ⟨some v, false⟩
    | _ => pure ()

/-- Whether a block needs a scope of its own. -/
def needsScope (body : List Stmt) : Bool :=
  body.any fun
    | .declare .block _ => true
    | .declare .constant _ => true
    | .function _ _ => true
    | _ => false

/-- A scope for the statements of a block. -/
def blockPlace (place : Place) (body : List Stmt) : Run Place := do
  if !needsScope body then return place
  let inner : Place := ⟨← Run.newScope (some place.scope) [], place.this⟩
  enterBlock inner body
  return inner

/-! ## Expressions -/

/-- The arguments of a call or the items of an array, with gaps. -/
def evalItems (deeper : Deeper) (place : Place) (items : List Expr) : Run (List (Option Val)) := do
  let parts ← items.mapM fun item => do
    match item with
    | .hole => return [none]
    | .spread e =>
      let v ← deeper.eval place e
      return (← itemsOf deeper.call v).map fun x => some (filled x)
    | e => return [some (← deeper.eval place e)]
  return parts.flatten

/-- The key that a value names. -/
def keyOf (deeper : Deeper) (v : Val) : Run Units := toUnits deeper.call v

/-- Evaluates what is stored under a name: a function without a name takes that name. -/
def evalNamed (deeper : Deeper) (place : Place) (name : String) (e : Expr) : Run Val :=
  match e with
  | .func (.mk "" params body arrow) => newFunction place (.mk name params body arrow)
  | e => deeper.eval place e

/-- A function that is written as an expression; its own name, if it has one, is visible in it. -/
def evalFunction (place : Place) (f : Function) : Run Val := do
  if f.name == "" then newFunction place f
  else
    let scope ← Run.newScope (some place.scope) []
    let v ← newFunction ⟨scope, place.this⟩ f
    declareVar scope f.name ⟨some v, false⟩
    return v

/-- What an assignment changes. -/
inductive Target where
  | variable (name : String)
  | member (holder : Val) (key : Units)

/-- Evaluates what an assignment changes. -/
def evalTarget (deeper : Deeper) (place : Place) (e : Expr) : Run Target := do
  match e with
  | .ident n => return .variable n
  | .member t k =>
    let holder ← deeper.eval place t
    let key ← deeper.eval place k
    match holder with
    | .undefined => Run.typeError "cannot convert 'null' or 'undefined' to object"
    | .null => Run.typeError "cannot convert 'null' or 'undefined' to object"
    | _ => return .member holder (← keyOf deeper key)
  | _ => Run.raiseError .malformed "invalid assignment target"

/-- The value of what an assignment changes. -/
def readTarget (place : Place) : Target → Run Val
  | .variable n => do
    match ← readVar? place.scope n with
    | some v => return v
    | none => Run.raiseError .reference (n ++ " is not defined")
  | .member holder key => readMember holder key

/-- Changes a value. -/
def writeTarget (place : Place) (t : Target) (v : Val) : Run Unit :=
  match t with
  | .variable n => assignVar place.scope n v
  | .member holder key => writeMember holder key v

/-- A call of a constructor or of a function of the script with a new object. -/
def construct (deeper : Deeper) (callee : Val) (args : List Val) : Run Val := do
  match callee with
  | .maker cls => callMaker deeper.call cls true args
  | .obj r =>
    match (← Run.object r).callable with
    | some (.closure f _ _) =>
      if f.isArrow then Run.typeError "not a constructor"
      let shape ← readMember callee (Units.ofString "prototype")
      let parent := match shape with
        | .obj p => some p
        | _ => none
      let this ← Run.alloc { Obj.plain .object with parent := parent }
      let result ← deeper.call callee this args
      return match result with
        | .obj p => .obj p
        | _ => this
    | some (.bound target _ first) =>
      match target with
      | .maker cls => callMaker deeper.call cls true (first ++ args)
      | _ => Run.typeError "not a constructor"
    | none => Run.typeError "not a constructor"
  | _ => Run.typeError "not a constructor"

/-- The value of an operator on one operand. -/
def evalUnary (deeper : Deeper) (place : Place) (op : UnaryOp) (e : Expr) : Run Val := do
  match op, e with
  | .typeOf, .ident n =>
    match ← readVar? place.scope n with
    | none => return .ofString "undefined"
    | some v => return .ofString (typeName (← isCallable v) v)
  | .delete, .member _ _ =>
    match ← evalTarget deeper place e with
    | .member holder key => eraseMember holder key; return .bool true
    | .variable _ => return .bool false
  | .delete, .ident _ => return .bool false
  | _, _ =>
    let v ← deeper.eval place e
    match op with
    | .negate => return .num (-(← toNumber deeper.call v))
    | .number => return .num (← toNumber deeper.call v)
    | .not => return .bool (!truthy v)
    | .complement =>
      return .num (Number.ofSigned32 (~~~(Number.toBits32 (← toNumber deeper.call v))))
    | .typeOf => return .ofString (typeName (← isCallable v) v)
    | .void => return .undefined
    | .delete => return .bool true

/-- Whether the second operand of an operator is left out. -/
def decided (op : LogicOp) (v : Val) : Bool :=
  match op, v with
  | .and, v => !truthy v
  | .or, v => truthy v
  | .nullish, .undefined => false
  | .nullish, .null => false
  | .nullish, _ => true

/-- One level of the evaluation of an expression. -/
def evalStep (deeper : Deeper) (place : Place) (e : Expr) : Run Val := do
  match e with
  | .num x => return .num x
  | .str u => return .str u
  | .bool b => return .bool b
  | .null => return .null
  | .this => return place.this
  | .hole => return .undefined
  | .spread e => deeper.eval place e
  | .ident n => readTarget place (.variable n)
  | .template parts holes =>
    let texts ← holes.mapM fun h => do toUnits deeper.call (← deeper.eval place h)
    let tails := (texts.zip (parts.drop 1)).flatMap fun (t, p) => t ++ p
    return .str (parts.headD [] ++ tails)
  | .array items => Run.newArray (← evalItems deeper place items)
  | .object members =>
    let result ← Run.alloc (Obj.plain .object)
    for (k, v) in members do
      match k with
      | .spread source =>
        for (key, value) in ← entriesOf (← deeper.eval place source) do
          writeMember result key value
      | .str key =>
        writeMember result key (← evalNamed deeper place (Units.toString key) v)
      | k =>
        let key ← keyOf deeper (← deeper.eval place k)
        writeMember result key (← deeper.eval place v)
    return result
  | .func f => evalFunction place f
  | .member t k =>
    let holder ← deeper.eval place t
    match k with
    | .str key => readMember holder key
    | k =>
      let key ← deeper.eval place k
      match holder with
      | .undefined => Run.typeError "cannot convert 'null' or 'undefined' to object"
      | .null => Run.typeError "cannot convert 'null' or 'undefined' to object"
      | _ => readMember holder (← keyOf deeper key)
  | .call callee args =>
    let (f, this) ← do
      match callee with
      | .member t k =>
        let holder ← deeper.eval place t
        let key ← keyOf deeper (← deeper.eval place k)
        pure (← readMember holder key, holder)
      | e => pure (← deeper.eval place e, Val.undefined)
    let args ← evalItems deeper place args
    if ← isCallable f then deeper.call f this (args.map filled)
    else Run.typeError "not a callable function"
  | .new callee args =>
    let f ← deeper.eval place callee
    let args ← evalItems deeper place args
    construct deeper f (args.map filled)
  | .unary op e => evalUnary deeper place op e
  | .binary op a b =>
    let x ← deeper.eval place a
    let y ← deeper.eval place b
    applyBinary deeper.call op x y
  | .logic op a b =>
    let x ← deeper.eval place a
    if decided op x then return x else deeper.eval place b
  | .cond test yes no =>
    if truthy (← deeper.eval place test) then deeper.eval place yes else deeper.eval place no
  | .assign op target value =>
    let t ← evalTarget deeper place target
    match op with
    | .plain =>
      let v ← match t with
        | .variable n => evalNamed deeper place n value
        | .member _ _ => deeper.eval place value
      writeTarget place t v
      return v
    | .binary op =>
      let old ← readTarget place t
      let v ← applyBinary deeper.call op old (← deeper.eval place value)
      writeTarget place t v
      return v
    | .logic op =>
      let old ← readTarget place t
      if decided op old then return old
      let v ← deeper.eval place value
      writeTarget place t v
      return v
  | .update before step target =>
    let t ← evalTarget deeper place target
    let old ← toNumber deeper.call (← readTarget place t)
    writeTarget place t (.num (old + step))
    return .num (if before then old + step else old)
  | .seq a b =>
    let _ ← deeper.eval place a
    deeper.eval place b

/-! ## Statements -/

/-- The greatest number of rounds of one loop. -/
def roundLimit : Nat := 100000000

/-- Repeats a round until it gives a result. -/
def repeatRounds {α : Type} (round : Run (Option α)) : Nat → Run α
  | 0 => throw .outOfFuel
  | fuel + 1 => do
    match ← round with
    | some a => return a
    | none => repeatRounds round fuel

/-- How a loop with some labels goes on after its body: with the next round, or to an end. -/
def afterBody (labels : List String) : Completion → Option Completion
  | .done _ => none
  | .next none => none
  | .next (some l) => if labels.contains l then none else some (.next (some l))
  | .exit none => some (.done none)
  | c => some c

/-- Runs statements one after the other. -/
def execAll (deeper : Deeper) (place : Place) (last : Option Val) : List Stmt → Run Completion
  | [] => return .done last
  | s :: rest => do
    match ← deeper.exec place s with
    | .done v => execAll deeper place (v.or last) rest
    | c => return c

/-- Runs a block in a scope of its own. -/
def execBlock (deeper : Deeper) (place : Place) (body : List Stmt) : Run Completion := do
  execAll deeper (← blockPlace place body) none body

/-- A copy of the innermost scope, so that each round of a loop has variables of its own. -/
def copyScope (place : Place) : Run Place := do
  let m ← get
  let scope := m.scopes[place.scope]?.getD default
  return ⟨← Run.newScope scope.parent scope.vars, place.this⟩

/-- Runs a loop with a test and an update. -/
def execLoop (deeper : Deeper) (labels : List String) (place : Place) (start : Stmt)
    (test step : Option Expr) (body : Stmt) : Run Completion := do
  let own := needsScope [start]
  let outer ← blockPlace place [start]
  let _ ← deeper.exec outer start
  let round (place : Place) : Run (Option Completion × Place) := do
    let go ← match test with
      | some e => do pure (truthy (← deeper.eval place e))
      | none => pure true
    if !go then return (some (.done none), place)
    match afterBody labels (← deeper.exec place body) with
    | some c => return (some c, place)
    | none =>
      let place ← if own then copyScope place else pure place
      match step with
      | some e => let _ ← deeper.eval place e
      | none => pure ()
      return (none, place)
  let rec rounds : Nat → Place → Run Completion
    | 0, _ => throw .outOfFuel
    | fuel + 1, place => do
      match ← round place with
      | (some c, _) => return c
      | (none, place) => rounds fuel place
  rounds roundLimit outer

/-- Runs a loop over the members or the items of a value. -/
def execForIn (deeper : Deeper) (labels : List String) (place : Place) (kind : Option DeclKind)
    (target source : Expr) (values : Bool) (body : Stmt) : Run Completion := do
  let v ← deeper.eval place source
  let items ← do
    if values then
      match v with
      | .str u => pure ((Units.codes u).map fun n => Val.str (Units.ofCode n))
      | .obj r =>
        if (← Run.object r).cls == .array then
          pure ((← itemsOf deeper.call v).map filled)
        else Run.typeError "value is not iterable"
      | _ => Run.typeError "value is not iterable"
    else
      match v with
      | .obj r =>
        let m ← get
        pure ((visibleKeys m [] (m.objects.size + 1) r).map Val.str)
      | .str _ => pure ((← ownKeys v).map Val.str)
      | _ => pure []
  let isBlock := match kind with
    | some .block => true
    | some .constant => true
    | _ => false
  let rec rounds : List Val → Run Completion
    | [] => return .done none
    | item :: rest => do
      let inner ← do
        match isBlock, target with
        | true, .ident n =>
          let s ← Run.newScope (some place.scope) [(n, ⟨some item, kind == some .constant⟩)]
          pure (⟨s, place.this⟩ : Place)
        | _, _ =>
          writeTarget place (← evalTarget deeper place target) item
          pure place
      match afterBody labels (← deeper.exec inner body) with
      | some c => return c
      | none => rounds rest
  rounds items

/-- The statements from the case on that a value selects. -/
def selectCase (deeper : Deeper) (place : Place) (v : Val) :
    List (Option Expr × List Stmt) → Run (Option (List Stmt))
  | [] => return none
  | (none, _) :: rest => selectCase deeper place v rest
  | (some e, body) :: rest => do
    if strictEqual v (← deeper.eval place e) then
      return some (body ++ rest.flatMap Prod.snd)
    else selectCase deeper place v rest

/-- The statements from the default case on. -/
def defaultCase : List (Option Expr × List Stmt) → List Stmt
  | [] => []
  | (none, body) :: rest => body ++ rest.flatMap Prod.snd
  | (some _, _) :: rest => defaultCase rest

/-- Runs a statement with a part that handles what it throws. -/
def execAttempt (deeper : Deeper) (place : Place) (body : List Stmt)
    (handler : Option (Option String × List Stmt)) : Run Completion := do
  match handler with
  | none => execBlock deeper place body
  | some (name, handlerBody) =>
    let depth := (← get).depth
    try execBlock deeper place body
    catch stop =>
      match stop with
      | .thrown v =>
        modify fun m => { m with depth := depth }
        let vars : List (String × Binding) := match name with
          | some n => [(n, ⟨some v, false⟩)]
          | none => []
        let inner : Place := ⟨← Run.newScope (some place.scope) vars, place.this⟩
        execBlock deeper inner handlerBody
      | stop => throw stop

/-- One level of the execution of a statement that carries some labels. -/
def execLabelled (deeper : Deeper) (labels : List String) (place : Place) (s : Stmt) :
    Run Completion := do
  match s with
  | .empty => return .done none
  | .expr e => return .done (some (← deeper.eval place e))
  | .declare kind names =>
    for (n, value) in names do
      match kind, value with
      | .function, none => pure ()
      | .function, some e => assignVar place.scope n (← evalNamed deeper place n e)
      | kind, value =>
        let v ← match value with
          | some e => evalNamed deeper place n e
          | none => pure .undefined
        declareVar place.scope n ⟨some v, kind == .constant⟩
    return .done none
  | .function _ _ => return .done none
  | .block body => execBlock deeper place body
  | .ifElse test yes no =>
    if truthy (← deeper.eval place test) then deeper.exec place yes else deeper.exec place no
  | .loop start test step body => execLoop deeper labels place start test step body
  | .forIn kind target source values body =>
    execForIn deeper labels place kind target source values body
  | .whileLoop test body => execLoop deeper labels place .empty (some test) none body
  | .doWhile body test =>
    repeatRounds (do
      match afterBody labels (← deeper.exec place body) with
      | some c => return some c
      | none => return if truthy (← deeper.eval place test) then none else some (.done none))
      roundLimit
  | .exit label => return .exit label
  | .next label => return .next label
  | .give none => return .give .undefined
  | .give (some e) => return .give (← deeper.eval place e)
  | .throw e => throw (.thrown (← deeper.eval place e))
  | .attempt body handler none => execAttempt deeper place body handler
  | .attempt body handler (some last) =>
    let depth := (← get).depth
    let first ← (do return Except.ok (← execAttempt deeper place body handler) : Run _) |>
      tryCatch <| fun stop => return Except.error stop
    modify fun m => { m with depth := depth }
    match ← execBlock deeper place last with
    | .done _ =>
      match first with
      | .ok c => return c
      | .error stop => throw stop
    | c => return c
  | .choose e cases =>
    let v ← deeper.eval place e
    let inner ← blockPlace place (cases.flatMap Prod.snd)
    let body ← selectCase deeper inner v cases
    match ← execAll deeper inner none (body.getD (defaultCase cases)) with
    | .exit none => return .done none
    | c => return c
  | .labelled label s => do
    match ← deeper.exec place s with
    | .exit (some l) => return if l == label then .done none else .exit (some l)
    | c => return c

/-- The labels in front of a statement, and the statement. -/
def stripLabels : Stmt → List String × Stmt
  | .labelled l s => let (ls, s) := stripLabels s; (l :: ls, s)
  | s => ([], s)

/-- One level of the execution of a statement. -/
def execStep (deeper : Deeper) (place : Place) (s : Stmt) : Run Completion := do
  let (labels, inner) := stripLabels s
  match ← execLabelled deeper labels place inner with
  | .exit (some l) => return if labels.contains l then .done none else .exit (some l)
  | c => return c

/-! ## Calls -/

/-- The greatest number of calls in progress. -/
def callLimit : Nat := 512

/-- Calls a function of the script. -/
def callClosure (deeper : Deeper) (f : Function) (scope : Nat) (captured this : Val)
    (args : List Val) : Run Val := do
  let m ← get
  if callLimit ≤ m.depth then throw (.limit "exceeded maximum number of recursive calls")
  set { m with depth := m.depth + 1 }
  let arguments ← Run.arrayOf args
  let own : List (String × Binding) :=
    if f.isArrow then [] else [("arguments", ⟨some arguments, false⟩)]
  let inner ← Run.newScope (some scope) own
  for (p, i) in f.params.zipIdx do
    declareVar inner p ⟨some (argAt args i), false⟩
  for n in functionNames f.body do
    if !f.params.contains n then declareVar inner n ⟨some .undefined, false⟩
  let this := if f.isArrow then captured else
    match this with
    | .undefined => .space .global
    | .null => .space .global
    | v => v
  let place : Place := ⟨inner, this⟩
  enterBlock place f.body
  let result ← execAll deeper place none f.body
  modify fun m => { m with depth := m.depth - 1 }
  return match result with
    | .give v => v
    | _ => .undefined

/-- One level of a call. -/
def callStep (deeper : Deeper) (callee this : Val) (args : List Val) : Run Val := do
  match callee with
  | .native owner name => callNative deeper.call owner name this args
  | .maker cls => callMaker deeper.call cls (cls matches .error _) args
  | .obj r =>
    match (← Run.object r).callable with
    | some (.closure f scope captured) => callClosure deeper f scope captured this args
    | some (.bound target this first) => deeper.call target this (first ++ args)
    | none => Run.typeError "not a callable function"
  | _ => Run.typeError "not a callable function"

/-! ## Evaluation up to a depth -/

mutual

/-- The value of an expression. -/
def evalAt : Nat → Place → Expr → Run Val
  | 0, _, _ => throw .outOfFuel
  | depth + 1, place, e => evalStep ⟨evalAt depth, execAt depth, callAt depth⟩ place e

/-- The execution of a statement. -/
def execAt : Nat → Place → Stmt → Run Completion
  | 0, _, _ => throw .outOfFuel
  | depth + 1, place, s => execStep ⟨evalAt depth, execAt depth, callAt depth⟩ place s

/-- The result of a call. -/
def callAt : Nat → Val → Val → List Val → Run Val
  | 0, _, _, _ => throw .outOfFuel
  | depth + 1, f, this, args => callStep ⟨evalAt depth, execAt depth, callAt depth⟩ f this args

end

/-- The depth to which a script is evaluated: enough for all calls that the machine allows. -/
def evaluationDepth : Nat := 1000000

/-- Runs the statements of a script in the global scope; the result is the value of the last
expression that stands as a statement. -/
def runProgram (body : List Stmt) : Run Val := do
  let place : Place := ⟨0, .space .global⟩
  let deeper : Deeper := ⟨evalAt evaluationDepth, execAt evaluationDepth, callAt evaluationDepth⟩
  for n in functionNames body do
    let m ← get
    let known := (m.scopes[0]?.getD default).vars.any (·.1 == n)
    if !known then declareVar 0 n ⟨some ((globalValue? n).getD .undefined), false⟩
  enterBlock place body
  match ← execAll deeper place none body with
  | .done v => return v.getD .undefined
  | _ => return .undefined

end WorkflowEngine.Script
