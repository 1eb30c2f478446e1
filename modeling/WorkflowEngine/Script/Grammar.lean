import WorkflowEngine.Script.Lexeme
import WorkflowEngine.Script.Term

/-!
# The grammar of the expression language

A recursive descent over lexemes.  Each rule is an ordinary function that takes the rules one level
deeper as an argument, **`Rules`**; the rules at a depth are then defined by recursion on the depth,
and a script of `n` lexemes needs no more than `n` levels.

Mistakes that can be seen without running the script make it malformed: a value that is assigned to
something other than a variable or a member, `return` outside a function, `break` and `continue`
without a loop, a variable declared twice in a block.

* **`Program.ofChars?`** — the statements of a script; nothing when the script is malformed.
-/

namespace WorkflowEngine.Script

/-- A reader of lexemes. -/
abbrev Reader := StateT (List Lexeme) Option

/-- What surrounds a statement. -/
structure Surroundings where
  inFunction : Bool
  inLoop : Bool
  breakable : Bool
  labels : List String

/-- The rules one level deeper: an expression without commas, where `in` may be kept for a loop; a
statement; and the statements of a function. -/
structure Rules where
  item : Bool → Reader Expr
  statement : Surroundings → Reader Stmt

namespace Reader

/-- The next lexeme, left in place. -/
def peek : Reader (Option Lexeme) := fun s => some (s.head?, s)

/-- Takes a sign if it is next. -/
def sign? (text : String) : Reader Bool := fun s =>
  match s with
  | ⟨.sign t, _⟩ :: rest => if t == text then some (true, rest) else some (false, s)
  | _ => some (false, s)

/-- Takes a word if it is next. -/
def word? (text : String) : Reader Bool := fun s =>
  match s with
  | ⟨.name t, _⟩ :: rest => if t == text then some (true, rest) else some (false, s)
  | _ => some (false, s)

/-- Takes a sign that must be next. -/
def sign (text : String) : Reader Unit := do
  if ← sign? text then pure () else failure

/-- Takes a word that must be next. -/
def word (text : String) : Reader Unit := do
  if ← word? text then pure () else failure

/-- The words that are no names of variables. -/
def reserved : List String :=
  ["break", "case", "catch", "class", "const", "continue", "debugger", "default", "delete", "do",
    "else", "enum", "export", "extends", "false", "finally", "for", "function", "if", "import",
    "in", "instanceof", "new", "null", "return", "super", "switch", "this", "throw", "true", "try",
    "typeof", "var", "void", "while", "with"]

/-- Takes the name of a variable. -/
def variableName : Reader String := fun s =>
  match s with
  | ⟨.name t, _⟩ :: rest => if reserved.contains t then none else some (t, rest)
  | _ => none

/-- Takes any name. -/
def anyName : Reader String := fun s =>
  match s with
  | ⟨.name t, _⟩ :: rest => some (t, rest)
  | _ => none

/-- Takes the end of a statement: a semicolon, or a place where one may be left out. -/
def statementEnd : Reader Unit := fun s =>
  match s with
  | [] => some ((), [])
  | ⟨.sign ";", _⟩ :: rest => some ((), rest)
  | ⟨.sign "\x7d", _⟩ :: _ => some ((), s)
  | ⟨_, true⟩ :: _ => some ((), s)
  | _ => none

/-- Tries a reader, and takes nothing when it fails. -/
def attempt {α : Type} (r : Reader α) : Reader (Option α) := fun s =>
  match r s with
  | some (a, rest) => some (some a, rest)
  | none => some (none, s)

/-- Reads elements until a closing sign, separated by commas; a comma may follow the last. -/
def listUntil {α : Type} (close : String) (element : Reader α) : Nat → Reader (List α)
  | 0 => failure
  | fuel + 1 => do
    if ← sign? close then return []
    let a ← element
    if ← sign? close then return [a]
    sign ","
    return a :: (← listUntil close element fuel)

/-- Reads until a closing sign. -/
def manyUntil {α : Type} (close : String) (element : Reader α) : Nat → Reader (List α)
  | 0 => failure
  | fuel + 1 => do
    if ← sign? close then return []
    let a ← element
    return a :: (← manyUntil close element fuel)

/-- The number of lexemes left, plus one. -/
def budget : Reader Nat := fun s => some (s.length + 1, s)

end Reader

open Reader

/-- The string of a name. -/
def nameKey (s : String) : Expr := .str (Units.ofString s)

/-- Whether a value can be assigned to an expression. -/
def Expr.isTarget : Expr → Bool
  | .ident _ => true
  | .member _ _ => true
  | _ => false

/-! ## Functions -/

/-- The surroundings of the statements of a function. -/
def Surroundings.ofFunction : Surroundings := ⟨true, false, false, []⟩

/-- Reads the parameters of a function, after the opening parenthesis. -/
def parameterList : Reader (List String) := do
  listUntil ")" variableName (← budget)

/-- Reads the statements of a function with its braces. -/
def functionBody (rules : Rules) : Reader (List Stmt) := do
  sign "\x7b"
  manyUntil "\x7d" (rules.statement .ofFunction) (← budget)

/-- Reads a function after its name. -/
def functionRest (rules : Rules) (name : String) : Reader Function := do
  sign "("
  let params ← parameterList
  let body ← functionBody rules
  return .mk name params body false

/-- Reads a function after the word `function`; it may have a name. -/
def functionExpr (rules : Rules) : Reader Expr := do
  let name ← attempt variableName
  return .func (← functionRest rules (name.getD ""))

/-- Reads the parameters of an arrow function with the arrow. -/
def arrowHead : Reader (List String) := do
  let params ← do
    if ← sign? "(" then parameterList else pure [← variableName]
  match ← peek with
  | some ⟨.sign "=>", false⟩ => sign "=>"
  | _ => failure
  return params

/-- Reads an arrow function, if there is one. -/
def arrowFunction (rules : Rules) (noIn : Bool) : Reader (Option Expr) := do
  match ← attempt arrowHead with
  | none => return none
  | some params =>
    let body ← do
      match ← peek with
      | some ⟨.sign "\x7b", _⟩ => functionBody rules
      | _ => pure [Stmt.give (some (← rules.item noIn))]
    return some (.func (.mk "" params body true))

/-! ## Expressions -/

/-- Reads expressions separated by commas, the first one given. -/
def commaTail (rules : Rules) (noIn : Bool) : Nat → Expr → Reader Expr
  | 0, _ => failure
  | fuel + 1, e => do
    if ← sign? "," then commaTail rules noIn fuel (.seq e (← rules.item noIn)) else return e

/-- Reads an expression. -/
def expression (rules : Rules) (noIn : Bool) : Reader Expr := do
  commaTail rules noIn (← budget) (← rules.item noIn)

/-- Reads an item of an array or an argument. -/
def spreadable (rules : Rules) : Reader Expr := do
  if ← sign? "..." then return .spread (← rules.item false) else rules.item false

/-- Reads the items of an array after its bracket. -/
def arrayItems (rules : Rules) : Nat → Reader (List Expr)
  | 0 => failure
  | fuel + 1 => do
    if ← sign? "]" then return []
    if ← sign? "," then return .hole :: (← arrayItems rules fuel)
    let e ← spreadable rules
    if ← sign? "]" then return [e]
    sign ","
    return e :: (← arrayItems rules fuel)

/-- Reads a member of an object. -/
def objectMember (rules : Rules) : Reader (Expr × Expr) := do
  if ← sign? "..." then return (.spread (← rules.item false), .hole)
  let (key, name) ← do
    if ← sign? "[" then
      let e ← expression rules false
      sign "]"
      pure (e, none)
    else
      match ← get with
      | ⟨.str u, _⟩ :: rest => set rest; pure (Expr.str u, none)
      | ⟨.num x, _⟩ :: rest => set rest; pure (nameKey (Number.text x), none)
      | ⟨.name s, _⟩ :: rest => set rest; pure (nameKey s, some s)
      | _ => failure
  if ← sign? ":" then return (key, ← rules.item false)
  match ← peek, name with
  | some ⟨.sign "(", _⟩, _ => return (key, .func (← functionRest rules (name.getD "")))
  | _, some s => if reserved.contains s then failure else return (key, .ident s)
  | _, none => failure

/-- Reads a hole of a text from its source. -/
def templateHole (rules : Rules) (source : List Char) : Option Expr := do
  let lexemes ← Lexeme.ofChars? source
  let (e, rest) ← expression rules false lexemes
  if rest.isEmpty then some e else none

/-- Reads an expression without operators. -/
def primary (rules : Rules) : Reader Expr := do
  match ← get with
  | [] => failure
  | ⟨t, _⟩ :: rest =>
    set rest
    match t with
    | .num x => return .num x
    | .str u => return .str u
    | .template parts holes => return .template parts (← (holes.mapM (templateHole rules) : Option _))
    | .name "function" => functionExpr rules
    | .name "this" => return .this
    | .name "null" => return .null
    | .name "true" => return .bool true
    | .name "false" => return .bool false
    | .name s => if reserved.contains s then failure else return .ident s
    | .sign "(" =>
      let e ← expression rules false
      sign ")"
      return e
    | .sign "[" => return .array (← arrayItems rules (← budget))
    | .sign "\x7b" => return .object (← listUntil "\x7d" (objectMember rules) (← budget))
    | .sign _ => failure

/-- Reads the members, and if allowed the calls, that follow an expression. -/
def accessTail (rules : Rules) (calls : Bool) : Nat → Expr → Reader Expr
  | 0, _ => failure
  | fuel + 1, e => do
    if ← sign? "." then accessTail rules calls fuel (.member e (nameKey (← anyName)))
    else if ← sign? "[" then
      let key ← expression rules false
      sign "]"
      accessTail rules calls fuel (.member e key)
    else
      match calls, ← peek with
      | true, some ⟨.sign "(", _⟩ =>
        sign "("
        let args ← listUntil ")" (spreadable rules) (← budget)
        accessTail rules calls fuel (.call e args)
      | _, _ => return e

/-- Reads an expression after `new`. -/
def construction (rules : Rules) : Nat → Reader Expr
  | 0 => failure
  | fuel + 1 => do
    let callee ← do
      if ← word? "new" then construction rules fuel else primary rules
    let callee ← accessTail rules false (← budget) callee
    if ← sign? "(" then
      return .new callee (← listUntil ")" (spreadable rules) (← budget))
    return .new callee []

/-- Reads an expression with its members and calls. -/
def access (rules : Rules) : Reader Expr := do
  let start ← do
    if ← word? "new" then construction rules (← budget) else primary rules
  accessTail rules true (← budget) start

/-- The operators that are written with a sign before their operand. -/
def unarySign? : Token → Option UnaryOp
  | .sign "-" => some .negate
  | .sign "+" => some .number
  | .sign "!" => some .not
  | .sign "~" => some .complement
  | .name "typeof" => some .typeOf
  | .name "void" => some .void
  | .name "delete" => some .delete
  | _ => none

/-- The step of `++` and `--`. -/
def updateStep? : Token → Option Float
  | .sign "++" => some 1
  | .sign "--" => some (-1)
  | _ => none

/-- Reads an expression with the operators on one operand. -/
def unary (rules : Rules) : Nat → Reader Expr
  | 0 => failure
  | fuel + 1 => do
    match ← get with
    | [] => failure
    | ⟨t, _⟩ :: rest =>
      match unarySign? t, updateStep? t with
      | some op, _ => set rest; return .unary op (← unary rules fuel)
      | _, some step =>
        set rest
        let e ← unary rules fuel
        if e.isTarget then return .update true step e else failure
      | none, none =>
        let e ← access rules
        match ← get with
        | ⟨t, false⟩ :: rest =>
          match updateStep? t with
          | some step => if e.isTarget then set rest; return .update false step e else failure
          | none => return e
        | _ => return e

/-- How an operator combines its operands. -/
inductive Combiner where
  | binary (op : BinaryOp)
  | logic (op : LogicOp)

/-- The operators on two operands and how tightly they bind. -/
def combiner? (noIn : Bool) : Token → Option (Nat × Combiner)
  | .sign "??" => some (1, .logic .nullish)
  | .sign "||" => some (2, .logic .or)
  | .sign "&&" => some (3, .logic .and)
  | .sign "|" => some (4, .binary .bitOr)
  | .sign "^" => some (5, .binary .bitXor)
  | .sign "&" => some (6, .binary .bitAnd)
  | .sign "==" => some (7, .binary .equal)
  | .sign "!=" => some (7, .binary .notEqual)
  | .sign "===" => some (7, .binary .same)
  | .sign "!==" => some (7, .binary .notSame)
  | .sign "<" => some (8, .binary .less)
  | .sign ">" => some (8, .binary .greater)
  | .sign "<=" => some (8, .binary .lessEq)
  | .sign ">=" => some (8, .binary .greaterEq)
  | .name "instanceof" => some (8, .binary .instanceOf)
  | .name "in" => if noIn then none else some (8, .binary .within)
  | .sign "<<" => some (9, .binary .shiftLeft)
  | .sign ">>" => some (9, .binary .shiftRight)
  | .sign ">>>" => some (9, .binary .shiftRightZero)
  | .sign "+" => some (10, .binary .add)
  | .sign "-" => some (10, .binary .sub)
  | .sign "*" => some (11, .binary .mul)
  | .sign "/" => some (11, .binary .div)
  | .sign "%" => some (11, .binary .rem)
  | .sign "**" => some (12, .binary .pow)
  | _ => none

/-- The expression of an operator. -/
def Combiner.apply : Combiner → Expr → Expr → Expr
  | .binary op, a, b => .binary op a b
  | .logic op, a, b => .logic op a b

/-- Reads the operators that bind at least as tightly as `least`, after their first operand.  The
power associates to the right, all others to the left. -/
def binaryTail (rules : Rules) (noIn : Bool) : Nat → Nat → Expr → Reader Expr
  | 0, _, _ => failure
  | fuel + 1, least, left => do
    match ← get with
    | [] => return left
    | ⟨t, _⟩ :: rest =>
      match combiner? noIn t with
      | none => return left
      | some (level, op) =>
        if level < least then return left
        else
          set rest
          let operand ← unary rules (← budget)
          let next := if level == 12 then level else level + 1
          let right ← binaryTail rules noIn fuel next operand
          binaryTail rules noIn fuel least (op.apply left right)

/-- The assignments. -/
def assignOp? : Token → Option AssignOp
  | .sign "=" => some .plain
  | .sign "+=" => some (.binary .add)
  | .sign "-=" => some (.binary .sub)
  | .sign "*=" => some (.binary .mul)
  | .sign "/=" => some (.binary .div)
  | .sign "%=" => some (.binary .rem)
  | .sign "**=" => some (.binary .pow)
  | .sign "<<=" => some (.binary .shiftLeft)
  | .sign ">>=" => some (.binary .shiftRight)
  | .sign ">>>=" => some (.binary .shiftRightZero)
  | .sign "&=" => some (.binary .bitAnd)
  | .sign "|=" => some (.binary .bitOr)
  | .sign "^=" => some (.binary .bitXor)
  | .sign "&&=" => some (.logic .and)
  | .sign "||=" => some (.logic .or)
  | .sign "??=" => some (.logic .nullish)
  | _ => none

/-- Reads an expression without commas. -/
def itemRule (rules : Rules) (noIn : Bool) : Reader Expr := do
  if let some f ← arrowFunction rules noIn then return f
  let first ← unary rules (← budget)
  let test ← binaryTail rules noIn (← budget) 0 first
  if ← sign? "?" then
    let yes ← rules.item false
    sign ":"
    let no ← rules.item noIn
    return .cond test yes no
  match ← get with
  | ⟨t, _⟩ :: rest =>
    match assignOp? t with
    | some op =>
      if test.isTarget then
        set rest
        return .assign op test (← rules.item noIn)
      else failure
    | none => return test
  | [] => return test

/-! ## Statements -/

/-- The kind of declaration that a word opens. -/
def declKind? : String → Option DeclKind
  | "var" => some .function
  | "let" => some .block
  | "const" => some .constant
  | _ => none

/-- Takes the word of a declaration, if one is next and a name follows. -/
def declaration? : Reader (Option DeclKind) := do
  match ← get with
  | ⟨.name w, _⟩ :: ⟨.name n, l⟩ :: rest =>
    match declKind? w with
    | some kind =>
      if n == "in" || n == "instanceof" then return none
      set (⟨Token.name n, l⟩ :: rest)
      return some kind
    | none => return none
  | _ => return none

/-- Reads the variables of a declaration. -/
def declarators (rules : Rules) (noIn : Bool) : Nat → Reader (List (String × Option Expr))
  | 0 => failure
  | fuel + 1 => do
    let name ← variableName
    let value ← do
      if ← sign? "=" then pure (some (← rules.item noIn)) else pure none
    if ← sign? "," then return (name, value) :: (← declarators rules noIn fuel)
    return [(name, value)]

/-- The names that a statement declares in its block. -/
def Stmt.blockNames : Stmt → List String
  | .declare .block names => names.map Prod.fst
  | .declare .constant names => names.map Prod.fst
  | _ => []

/-- Whether some names are all different. -/
def distinctNames : List String → Bool
  | [] => true
  | n :: rest => !rest.contains n && distinctNames rest

/-- Accepts the statements of a block that declare no variable twice. -/
def checkBlock (body : List Stmt) : Reader (List Stmt) :=
  if distinctNames (body.flatMap Stmt.blockNames) then return body else failure

/-- Reads the statements of a block after its brace. -/
def blockBody (rules : Rules) (at_ : Surroundings) : Reader (List Stmt) := do
  checkBlock (← manyUntil "\x7d" (rules.statement at_) (← budget))

/-- The surroundings of the body of a loop. -/
def Surroundings.loop (s : Surroundings) : Surroundings :=
  { s with inLoop := true, breakable := true }

/-- Reads an expression in parentheses. -/
def parenthesised (rules : Rules) : Reader Expr := do
  sign "("
  let e ← expression rules false
  sign ")"
  return e

/-- Reads the rest of a loop over the members of a value. -/
def forInRest (rules : Rules) (at_ : Surroundings) (kind : Option DeclKind) (target : Expr) :
    Reader (Option Stmt) := do
  let values ← do
    if ← word? "in" then pure (some false)
    else if ← word? "of" then pure (some true)
    else pure none
  match values with
  | none => return none
  | some values =>
    let source ← if values then rules.item false else expression rules false
    sign ")"
    return some (.forIn kind target source values (← rules.statement at_.loop))

/-- Reads an expression that may be left out before a closing sign. -/
def optionalUntil (rules : Rules) (close : String) : Reader (Option Expr) := do
  if ← sign? close then return none
  let e ← expression rules false
  sign close
  return some e

/-- Reads the rest of a loop after its first part. -/
def forRest (rules : Rules) (at_ : Surroundings) (start : Stmt) : Reader Stmt := do
  sign ";"
  let test ← optionalUntil rules ";"
  let step ← optionalUntil rules ")"
  return .loop start test step (← rules.statement at_.loop)

/-- Reads a loop after the word `for`. -/
def forStatement (rules : Rules) (at_ : Surroundings) : Reader Stmt := do
  sign "("
  match ← peek with
  | some ⟨.sign ";", _⟩ => forRest rules at_ .empty
  | _ =>
    match ← declaration? with
    | some kind =>
      let start ← get
      let name ← variableName
      match ← forInRest rules at_ (some kind) (.ident name) with
      | some s => return s
      | none =>
        set start
        forRest rules at_ (.declare kind (← declarators rules true (← budget)))
    | none =>
      let e ← expression rules true
      match ← (if e.isTarget then forInRest rules at_ none e else pure none) with
      | some s => return s
      | none => forRest rules at_ (.expr e)

/-- Reads the statements of a case up to the next case or the closing brace. -/
def caseBody (rules : Rules) (at_ : Surroundings) : Nat → Reader (List Stmt)
  | 0 => failure
  | fuel + 1 => do
    match ← peek with
    | some ⟨.sign "\x7d", _⟩ => return []
    | some ⟨.name "case", _⟩ => return []
    | some ⟨.name "default", _⟩ => return []
    | _ => return (← rules.statement at_) :: (← caseBody rules at_ fuel)

/-- Reads a case. -/
def caseClause (rules : Rules) (at_ : Surroundings) : Reader (Option Expr × List Stmt) := do
  let test ← do
    if ← word? "default" then pure none
    else
      word "case"
      pure (some (← expression rules false))
  sign ":"
  return (test, ← caseBody rules at_ (← budget))

/-- Reads the label of `break` or `continue`, on the same line. -/
def jumpLabel : Reader (Option String) := do
  match ← peek with
  | some ⟨.name _, false⟩ => attempt variableName
  | _ => return none

/-- Reads a statement that opens with a word; nothing when the word opens none. -/
def wordStatement (rules : Rules) (at_ : Surroundings) (w : String) : Option (Reader Stmt) :=
  match w with
  | "function" => some do
    let name ← variableName
    return .function name (← functionRest rules name)
  | "if" => some do
    let test ← parenthesised rules
    let yes ← rules.statement at_
    let no ← do
      if ← word? "else" then rules.statement at_ else pure .empty
    return .ifElse test yes no
  | "for" => some (forStatement rules at_)
  | "while" => some do
    let test ← parenthesised rules
    return .whileLoop test (← rules.statement at_.loop)
  | "do" => some do
    let body ← rules.statement at_.loop
    word "while"
    let test ← parenthesised rules
    let _ ← sign? ";"
    return .doWhile body test
  | "return" => some do
    if !at_.inFunction then failure
    match ← peek with
    | none => return .give none
    | some ⟨.sign ";", _⟩ => statementEnd; return .give none
    | some ⟨.sign "\x7d", _⟩ => return .give none
    | some ⟨_, true⟩ => return .give none
    | some _ =>
      let e ← expression rules false
      statementEnd
      return .give (some e)
  | "break" => some do
    let label ← jumpLabel
    statementEnd
    let allowed := match label with
      | some l => at_.labels.contains l
      | none => at_.breakable
    if allowed then return .exit label else failure
  | "continue" => some do
    let label ← jumpLabel
    statementEnd
    if at_.inLoop && label.elim true at_.labels.contains then return .next label else failure
  | "throw" => some do
    match ← peek with
    | some ⟨_, false⟩ =>
      let e ← expression rules false
      statementEnd
      return .throw e
    | _ => failure
  | "try" => some do
    sign "\x7b"
    let body ← blockBody rules at_
    let handler ← do
      if ← word? "catch" then
        let name ← do
          if ← sign? "(" then
            let n ← variableName
            sign ")"
            pure (some n)
          else pure none
        sign "\x7b"
        pure (some (name, ← blockBody rules at_))
      else pure none
    let last ← do
      if ← word? "finally" then
        sign "\x7b"
        pure (some (← blockBody rules at_))
      else pure none
    if handler.isNone && last.isNone then failure
    return .attempt body handler last
  | "switch" => some do
    let e ← parenthesised rules
    sign "\x7b"
    let cases ← manyUntil "\x7d" (caseClause rules { at_ with breakable := true }) (← budget)
    if 1 < (cases.filter fun c => c.1.isNone).length then failure
    return .choose e cases
  | _ => none

/-- Reads an expression as a statement. -/
def expressionStatement (rules : Rules) : Reader Stmt := do
  let e ← expression rules false
  statementEnd
  return .expr e

/-- Reads a statement. -/
def statementRule (rules : Rules) (at_ : Surroundings) : Reader Stmt := do
  match ← get with
  | [] => failure
  | ⟨.sign ";", _⟩ :: rest => set rest; return .empty
  | ⟨.sign "\x7b", _⟩ :: rest => set rest; return .block (← blockBody rules at_)
  | ⟨.name l, _⟩ :: ⟨.sign ":", _⟩ :: rest =>
    if reserved.contains l then failure
    set rest
    return .labelled l (← rules.statement { at_ with labels := l :: at_.labels })
  | ⟨.name w, _⟩ :: rest =>
    match wordStatement rules at_ w with
    | some r => set rest; r
    | none =>
      match ← declaration? with
      | some kind =>
        let names ← declarators rules false (← budget)
        if kind == .constant && names.any (·.2.isNone) then failure
        statementEnd
        return .declare kind names
      | none => expressionStatement rules
  | _ => expressionStatement rules

/-- The rules that may nest up to a depth. -/
def rulesAt : Nat → Rules
  | 0 => ⟨fun _ => failure, fun _ => failure⟩
  | depth + 1 =>
    let rules := rulesAt depth
    ⟨itemRule rules, statementRule rules⟩

/-- A script: its statements. -/
abbrev Program := List Stmt

/-- The surroundings of the statements of a script. -/
def Surroundings.ofScript : Surroundings := ⟨false, false, false, []⟩

/-- Reads statements to the end of a script. -/
def statementsToEnd (rules : Rules) : Nat → Reader (List Stmt)
  | 0 => failure
  | fuel + 1 => do
    match ← get with
    | [] => return []
    | _ => return (← rules.statement .ofScript) :: (← statementsToEnd rules fuel)

/-- The statements of a script; nothing when the script is malformed. -/
def Program.ofChars? (source : List Char) : Option Program := do
  let lexemes ← Lexeme.ofChars? source
  -- One level for each character covers the holes of texts as well.
  let rules := rulesAt (source.length + 2)
  let (body, _) ← (do checkBlock (← statementsToEnd rules (lexemes.length + 1)) : Reader _) lexemes
  some body

end WorkflowEngine.Script
