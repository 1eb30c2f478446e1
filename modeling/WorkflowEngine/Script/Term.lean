import WorkflowEngine.Script.Units

/-!
# Programs of the expression language

The abstract form of expressions and statements.  A list of array items or arguments may hold
**`Expr.hole`** (an elision) and **`Expr.spread`**; nowhere else do they occur.
-/

namespace WorkflowEngine.Script

/-- An operator on one operand. -/
inductive UnaryOp where
  | negate
  | number
  | not
  | complement
  | typeOf
  | void
  | delete
  deriving Repr, DecidableEq

/-- An operator on two operands that are both evaluated. -/
inductive BinaryOp where
  | add
  | sub
  | mul
  | div
  | rem
  | pow
  | less
  | greater
  | lessEq
  | greaterEq
  | equal
  | notEqual
  | same
  | notSame
  | bitAnd
  | bitOr
  | bitXor
  | shiftLeft
  | shiftRight
  | shiftRightZero
  | within
  | instanceOf
  deriving Repr, DecidableEq

/-- An operator whose second operand is evaluated only when it decides the result. -/
inductive LogicOp where
  | and
  | or
  | nullish
  deriving Repr, DecidableEq

/-- How an assignment uses the old value. -/
inductive AssignOp where
  | plain
  | binary (op : BinaryOp)
  | logic (op : LogicOp)
  deriving Repr, DecidableEq

/-- How a variable is declared. -/
inductive DeclKind where
  /-- Visible in the whole function. -/
  | function
  /-- Visible in the block. -/
  | block
  /-- Visible in the block, never assigned again. -/
  | constant
  deriving Repr, DecidableEq

mutual

/-- An expression. -/
inductive Expr where
  | num (x : Float)
  | str (u : Units)
  | bool (b : Bool)
  | null
  | this
  | ident (name : String)
  | template (parts : List Units) (holes : List Expr)
  | array (items : List Expr)
  | hole
  | spread (e : Expr)
  | object (members : List (Expr × Expr))
  | func (f : Function)
  | member (target key : Expr)
  | call (callee : Expr) (args : List Expr)
  | new (callee : Expr) (args : List Expr)
  | unary (op : UnaryOp) (e : Expr)
  | binary (op : BinaryOp) (a b : Expr)
  | logic (op : LogicOp) (a b : Expr)
  | cond (test yes no : Expr)
  | assign (op : AssignOp) (target value : Expr)
  | update (before : Bool) (by_ : Float) (target : Expr)
  | seq (a b : Expr)

/-- A function: its parameters, its statements, and whether it takes `this` from its place. -/
inductive Function where
  | mk (name : String) (params : List String) (body : List Stmt) (arrow : Bool)

/-- A statement. -/
inductive Stmt where
  | empty
  | expr (e : Expr)
  | declare (kind : DeclKind) (names : List (String × Option Expr))
  | function (name : String) (f : Function)
  | block (body : List Stmt)
  | ifElse (test : Expr) (yes no : Stmt)
  | loop (start : Stmt) (test update : Option Expr) (body : Stmt)
  | forIn (kind : Option DeclKind) (target : Expr) (source : Expr) (values : Bool) (body : Stmt)
  | whileLoop (test : Expr) (body : Stmt)
  | doWhile (body : Stmt) (test : Expr)
  | exit (label : Option String)
  | next (label : Option String)
  | give (e : Option Expr)
  | throw (e : Expr)
  | attempt (body : List Stmt) (handler : Option (Option String × List Stmt))
      (last : Option (List Stmt))
  | choose (e : Expr) (cases : List (Option Expr × List Stmt))
  | labelled (label : String) (s : Stmt)

end

instance : Inhabited Expr := ⟨.null⟩
instance : Inhabited Stmt := ⟨.empty⟩

/-- The name of a function. -/
def Function.name : Function → String
  | .mk name _ _ _ => name

/-- The parameters of a function. -/
def Function.params : Function → List String
  | .mk _ params _ _ => params

/-- The statements of a function. -/
def Function.body : Function → List Stmt
  | .mk _ _ body _ => body

/-- Whether a function takes `this` from its place. -/
def Function.isArrow : Function → Bool
  | .mk _ _ _ arrow => arrow

end WorkflowEngine.Script
