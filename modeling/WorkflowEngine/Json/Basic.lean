import WorkflowEngine.OrderedMap

/-!
# JSON values

Documents, parameters and results are JSON.  Two things that JSON readers often drop are kept,
because they show in results: the order of an object's members, and whether a number was written
as an integer.

* **`Json`** — the type.  An `int` lies between `-2 ^ 63` and `2 ^ 64 - 1`; every other number is
  a `float`.
* **`Json.field?`** — a member of an object.
-/

namespace WorkflowEngine

/-- A JSON value. -/
inductive Json where
  | null
  | bool (b : Bool)
  | int (n : Int)
  | float (x : Float)
  | str (s : String)
  | arr (items : List Json)
  | obj (members : List (String × Json))
  deriving Inhabited

namespace Json

mutual

/-- Whether two values are the same; floating point numbers are compared as numbers. -/
def same : Json → Json → Bool
  | .null, .null => true
  | .bool a, .bool b => a == b
  | .int a, .int b => a == b
  | .float a, .float b => a == b
  | .str a, .str b => a == b
  | .arr as, .arr bs => sameItems as bs
  | .obj as, .obj bs => sameMembers as bs
  | _, _ => false

/-- Whether two lists of values are the same. -/
def sameItems : List Json → List Json → Bool
  | [], [] => true
  | a :: as, b :: bs => same a b && sameItems as bs
  | _, _ => false

/-- Whether two lists of members are the same. -/
def sameMembers : List (String × Json) → List (String × Json) → Bool
  | [], [] => true
  | (k, a) :: as, (l, b) :: bs => k == l && same a b && sameMembers as bs
  | _, _ => false

end

instance : BEq Json := ⟨same⟩

/-- The members of an object, and nothing for other values. -/
def members : Json → OrderedMap Json
  | .obj members => members
  | _ => []

/-- A member of an object. -/
def field? (json : Json) (key : String) : Option Json := OrderedMap.find? json.members key

/-- The text of a string. -/
def str? : Json → Option String
  | .str s => some s
  | _ => none

/-- The items of an array. -/
def items? : Json → Option (List Json)
  | .arr items => some items
  | _ => none

/-- The truth value of a boolean. -/
def bool? : Json → Option Bool
  | .bool b => some b
  | _ => none

/-- Whether the value is null. -/
def isNull : Json → Bool
  | .null => true
  | _ => false

/-- An array of strings. -/
def strings (texts : List String) : Json := .arr (texts.map .str)

end Json

/-- The least integer that a document can hold exactly as a signed number. -/
def minSigned : Int := -9223372036854775808

/-- The greatest integer that a document can hold exactly as a signed number. -/
def maxSigned : Int := 9223372036854775807

/-- The greatest integer that a document can hold exactly. -/
def maxUnsigned : Int := 18446744073709551615

/-- Whether an integer is signed with 64 bits. -/
def fitsSigned (n : Int) : Bool := minSigned ≤ n && n ≤ maxSigned

/-- The nearest floating point number of an integer. -/
def floatOfInt (n : Int) : Float :=
  if 0 ≤ n then Float.ofScientific n.toNat false 0
  else -(Float.ofScientific (-n).toNat false 0)

end WorkflowEngine
