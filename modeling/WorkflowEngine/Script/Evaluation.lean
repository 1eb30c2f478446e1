import WorkflowEngine.Script.Grammar
import WorkflowEngine.Script.Interpreter

/-!
# Evaluating a script to JSON

A script runs in fresh memory that holds some global variables, after the scripts of a library.

* **`ScriptFault`**, **`ScriptFault.text`** — why a script gives no result.
* **`evaluateScript`** — the result of a script, where undefined is null and an integral number
  below `9e15` is an integer.
-/

namespace WorkflowEngine.Script

/-- Why a script gives no result. -/
inductive ScriptFault where
  /-- The script does not follow the grammar. -/
  | malformed
  /-- The script threw something, given by its text. -/
  | thrown (text : String)
  /-- The script passed a limit. -/
  | limit (message : String)
  /-- The script did more work than is allowed. -/
  | outOfFuel
  deriving Repr, DecidableEq

/-- The text of a fault. -/
def ScriptFault.text : ScriptFault → String
  | .malformed => "SyntaxError: malformed script"
  | .thrown text => text
  | .limit message => "RuntimeLimit: " ++ message
  | .outOfFuel => "RuntimeLimit: evaluation does not end"

/-- A thrown value as it is shown outside: strings in quotation marks, errors by name and message,
arrays item by item. -/
def shown (m : Machine) : Nat → Val → String
  | 0, _ => ""
  | fuel + 1, v =>
    match v with
    | .str u => "\"" ++ Units.toString u ++ "\""
    | .obj r =>
      match m.objects[r]? with
      | none => ""
      | some o =>
        match o.cls with
        | .error kind =>
          let part (key : String) (fallback : String) : String :=
            match lookup m (Units.ofString key) (m.objects.size + 1) r with
            | .ok (.str u) => Units.toString u
            | .ok v => plainText v
            | .error _ => fallback
          let name := part "name" kind.name
          let message := part "message" ""
          if name.isEmpty then message
          else if message.isEmpty then name
          else name ++ ": " ++ message
        | .array =>
          if o.items.isEmpty then "[]"
          else
            let texts := o.items.toList.map fun item => shown m fuel (item.getD .undefined)
            "[ " ++ ", ".intercalate texts ++ " ]"
        | .function => "[Function]"
        | _ =>
          let members := (o.keys false).map fun k =>
            Units.toString k ++ ": " ++ shown m fuel ((o.own? k).getD .undefined)
          "\x7b " ++ ", ".intercalate members ++ " \x7d"
    | .native _ name => "[Function: " ++ name ++ "]"
    | .maker cls => "[Function: " ++ cls.name ++ "]"
    | v => plainText v

/-- The fault of a computation that stopped. -/
def faultOf (m : Machine) : Stop → ScriptFault
  | .thrown v => .thrown (shown m 100 v)
  | .limit message => .limit message
  | .outOfFuel => .outOfFuel

/-- The bound below which integral numbers become integers. -/
def integralBound : Float := 9.0e15

mutual

/-- Turns the integral numbers of a result into integers. -/
def integralNumbers : Json → Json
  | .float x =>
    if x.abs < integralBound && x.floor == x then
      match Number.whole? x with
      | some n => .int n
      | none => .float x
    else .float x
  | .arr items => .arr (integralItems items)
  | .obj members => .obj (integralMembers members)
  | j => j

/-- Turns the integral numbers of a list of results into integers. -/
def integralItems : List Json → List Json
  | [] => []
  | item :: rest => integralNumbers item :: integralItems rest

/-- Turns the integral numbers of a list of members into integers. -/
def integralMembers : List (String × Json) → List (String × Json)
  | [] => []
  | (k, v) :: rest => (k, integralNumbers v) :: integralMembers rest

end

/-- Runs a script in some memory. -/
def runSource (m : Machine) (source : String) : Except ScriptFault (Val × Machine) :=
  match Program.ofChars? source.toList with
  | none => .error .malformed
  | some body =>
    match ((runProgram body).run m) with
    | (.ok v, m) => .ok (v, m)
    | (.error stop, m) => .error (faultOf m stop)

/-- Memory with some global variables. -/
def machineWith (globals : List (String × Json)) : Machine :=
  let setup : Run Unit := do
    for (name, json) in globals do
      let v ← importJson json
      declareVar 0 name ⟨some v, false⟩
  (setup.run Machine.start).2

/-- Runs the scripts of a library one after the other. -/
def runLibrary (m : Machine) : List String → Except ScriptFault Machine
  | [] => .ok m
  | source :: rest =>
    match runSource m source with
    | .ok (_, m) => runLibrary m rest
    | .error fault => .error fault

/-- The greatest depth of a result. -/
def resultDepth : Nat := 10000

/-- A value of a script as a result. -/
def resultOf (m : Machine) (v : Val) : Json :=
  if v.isUndefined then .null else integralNumbers (exportJson m resultDepth v)

/-- The result of a script in some memory. -/
def evaluateIn (m : Machine) (source : String) : Except ScriptFault Json :=
  (runSource m source).map fun (v, m) => resultOf m v

end WorkflowEngine.Script
