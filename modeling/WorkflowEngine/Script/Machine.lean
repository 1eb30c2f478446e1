import WorkflowEngine.Script.Term
import WorkflowEngine.Script.Number

/-!
# Values and memory of a running script

Objects and scopes live in two arrays of the machine and are named by their positions.  The library
functions of the language are values without memory: a **`Val.native`** is known by its owner and
its name.

* **`Val`**, **`Obj`**, **`Scope`**, **`Machine`** — values, objects, scopes and memory.
* **`Run`** — a computation that reads and changes memory and may stop early.
* **`Run.raiseError`** — stops with a new error object.
-/

namespace WorkflowEngine.Script

/-- The kinds of error objects. -/
inductive ErrorKind where
  | plain
  | type
  | range
  | malformed
  | reference
  | evaluation
  | address
  deriving Repr, DecidableEq

/-- The name of a kind of error objects. -/
def ErrorKind.name : ErrorKind → String
  | .plain => "Error"
  | .type => "TypeError"
  | .range => "RangeError"
  | .malformed => "SyntaxError"
  | .reference => "ReferenceError"
  | .evaluation => "EvalError"
  | .address => "URIError"

/-- The classes of objects, each with a constructor and with methods of its own. -/
inductive Class where
  | object
  | array
  | string
  | number
  | boolean
  | function
  | error (kind : ErrorKind)
  deriving Repr, DecidableEq

/-- The name of the constructor of a class. -/
def Class.name : Class → String
  | .object => "Object"
  | .array => "Array"
  | .string => "String"
  | .number => "Number"
  | .boolean => "Boolean"
  | .function => "Function"
  | .error kind => kind.name

/-- Where a library function is found. -/
inductive Owner where
  /-- On the instances of a class. -/
  | instance_ (cls : Class)
  /-- On the constructor of a class. -/
  | static (cls : Class)
  | math
  | json
  | global
  deriving Repr, DecidableEq

/-- A value of a script. -/
inductive Val where
  | undefined
  | null
  | bool (b : Bool)
  | num (x : Float)
  | str (u : Units)
  /-- An object in memory. -/
  | obj (place : Nat)
  /-- A function of the library. -/
  | native (owner : Owner) (name : String)
  /-- The constructor of a class. -/
  | maker (cls : Class)
  /-- The object that holds the methods of a class. -/
  | methods (cls : Class)
  /-- An object that only holds library functions, or the global object. -/
  | space (owner : Owner)
  deriving Inhabited

/-- A property of an object; hidden ones are skipped by loops over the members. -/
structure Slot where
  value : Val
  hidden : Bool
  deriving Inhabited

/-- What an object does when it is called. -/
inductive Callable where
  /-- A function of the script with the scope and the `this` of its place. -/
  | closure (f : Function) (scope : Nat) (this : Val)
  /-- A function with `this` and its first arguments fixed. -/
  | bound (target this : Val) (args : List Val)

/-- An object. -/
structure Obj where
  cls : Class
  /-- The object that is asked for members that are missing here. -/
  parent : Option Nat
  props : List (Units × Slot)
  /-- The items of an array, with gaps. -/
  items : Array (Option Val)
  callable : Option Callable
  /-- The value inside a wrapper object. -/
  inside : Option Val

instance : Inhabited Obj := ⟨⟨.object, none, [], #[], none, none⟩⟩

/-- An object without members. -/
def Obj.plain (cls : Class) : Obj := ⟨cls, none, [], #[], none, none⟩

/-- A variable: it has no value before its declaration has run. -/
structure Binding where
  value : Option Val
  constant : Bool
  deriving Inhabited

/-- The variables of a function or a block. -/
structure Scope where
  vars : List (String × Binding)
  parent : Option Nat
  deriving Inhabited

/-- Memory: objects, scopes and the number of calls in progress.  The scope at place 0 holds the
global variables. -/
structure Machine where
  objects : Array Obj
  scopes : Array Scope
  depth : Nat
  deriving Inhabited

/-- Memory with no objects and no variables. -/
def Machine.start : Machine := ⟨#[], #[⟨[], none⟩], 0⟩

/-- Why a script stops early. -/
inductive Stop where
  /-- A value was thrown. -/
  | thrown (v : Val)
  /-- The script passed a limit of the machine. -/
  | limit (message : String)
  /-- The bound on the work of one evaluation was reached. -/
  | outOfFuel
  deriving Inhabited

/-- A computation of a running script. -/
abbrev Run := ExceptT Stop (StateM Machine)

namespace Run

/-- Puts an object into memory. -/
def alloc (o : Obj) : Run Val := do
  let m ← get
  set { m with objects := m.objects.push o }
  return .obj m.objects.size

/-- The object at a place. -/
def object (place : Nat) : Run Obj := do
  return (← get).objects[place]?.getD default

/-- Changes the object at a place. -/
def update (place : Nat) (f : Obj → Obj) : Run Unit :=
  modify fun m => { m with objects := m.objects.modify place f }

/-- Puts a scope into memory. -/
def newScope (parent : Option Nat) (vars : List (String × Binding)) : Run Nat := do
  let m ← get
  set { m with scopes := m.scopes.push ⟨vars, parent⟩ }
  return m.scopes.size

/-- Stops with a new error object. -/
def raiseError {α : Type} (kind : ErrorKind) (message : String) : Run α := do
  let slot : Slot := ⟨.str (Units.ofString message), true⟩
  let e ← alloc { Obj.plain (.error kind) with props := [(Units.ofString "message", slot)] }
  throw (.thrown e)

/-- Stops with a type error. -/
def typeError {α : Type} (message : String) : Run α := raiseError .type message

/-- A new array. -/
def newArray (items : List (Option Val)) : Run Val :=
  alloc { Obj.plain .array with items := items.toArray }

/-- A new array without gaps. -/
def arrayOf (items : List Val) : Run Val := newArray (items.map some)

end Run

/-- The position that a key names in an array: a decimal number without leading zeros. -/
def position? (key : Units) : Option Nat :=
  match key with
  | [] => none
  | [48] => some 0
  | 48 :: _ => none
  | _ =>
    let (ds, rest) := Number.takeDigits 10 key
    if rest.isEmpty && ds.length ≤ 10 then
      let n := Number.digitsValue 10 ds
      if n < 4294967295 then some n else none
    else none

/-- The key of a natural number. -/
def keyOfNat (n : Nat) : Units := Units.ofString (Nat.repr n)

/-- The value stored under a key. -/
def findSlot (props : List (Units × Slot)) (key : Units) : Option Slot :=
  (props.find? (·.1 == key)).map Prod.snd

/-- Stores a value under a key, keeping the place and the visibility of a known key. -/
def storeSlot (props : List (Units × Slot)) (key : Units) (v : Val) : List (Units × Slot) :=
  match props with
  | [] => [(key, ⟨v, false⟩)]
  | (k, s) :: rest =>
    if k == key then (k, { s with value := v }) :: rest else (k, s) :: storeSlot rest key v

/-- Puts a number into an ascending list. -/
def insertAscending (n : Nat) : List Nat → List Nat
  | [] => [n]
  | m :: rest => if n ≤ m then n :: m :: rest else m :: insertAscending n rest

/-- The keys of an object's own members: positions in ascending order, then names in order of
creation. -/
def Obj.keys (o : Obj) (hidden : Bool) : List Units :=
  let shown := (o.props.filter fun p => hidden || !p.2.hidden).map Prod.fst
  let inArray := (List.range o.items.size).filter fun i => (o.items[i]?.join).isSome
  let positions := (shown.filterMap position?).foldl (fun ns n => insertAscending n ns) []
  let inside : List Nat := match o.inside with
    | some (.str u) => List.range u.length
    | _ => []
  (inside ++ inArray ++ positions).map keyOfNat ++ shown.filter fun k => (position? k).isNone

/-- The word for a value's type. -/
def typeName (isFunction : Bool) : Val → String
  | .undefined => "undefined"
  | .null => "object"
  | .bool _ => "boolean"
  | .num _ => "number"
  | .str _ => "string"
  | .obj _ => if isFunction then "function" else "object"
  | .native _ _ => "function"
  | .maker _ => "function"
  | .methods .function => "function"
  | .methods _ => "object"
  | .space _ => "object"

/-- Whether a value can be called. -/
def isCallable (v : Val) : Run Bool := do
  match v with
  | .obj r => return (← Run.object r).callable.isSome
  | .native _ _ => return true
  | .maker _ => return true
  | _ => return false

/-- Whether a value counts as true. -/
def truthy : Val → Bool
  | .undefined => false
  | .null => false
  | .bool b => b
  | .num x => !(x == 0 || x.isNaN)
  | .str u => !u.isEmpty
  | _ => true

/-- Whether two values are the same without conversion. -/
def strictEqual : Val → Val → Bool
  | .undefined, .undefined => true
  | .null, .null => true
  | .bool a, .bool b => a == b
  | .num a, .num b => a == b
  | .str a, .str b => a == b
  | .obj a, .obj b => a == b
  | .native o n, .native p m => o == p && n == m
  | .maker a, .maker b => a == b
  | .methods a, .methods b => a == b
  | .space a, .space b => a == b
  | _, _ => false

end WorkflowEngine.Script
