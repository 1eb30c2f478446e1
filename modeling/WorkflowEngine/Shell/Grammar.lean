import WorkflowEngine.Shell.Lexeme

/-!
# Commands of a shell text

A text is a sequence of commands.  Commands are joined by `&&` and `||`, and, more closely, by `|`;
one that is set off by `&` is run like one that ends a line.

* **`Redirection`**, **`Command`** — what a text says.
* **`parse?`** — the command of a text.
-/

namespace WorkflowEngine.Shell

/-! ## Commands -/

/-- A stream that is sent elsewhere. -/
structure Redirection where
  stream : Nat
  direction : Direction
  target : Word
  deriving Repr, DecidableEq, Inhabited

/-- A command. -/
inductive Command where
  | nothing
  | simple (words : List Word) (redirections : List Redirection)
  /-- Commands in brackets; in parentheses they leave no trace in the shell. -/
  | group (apart : Bool) (body : Command) (redirections : List Redirection)
  | pipe (source sink : Command)
  | negated (body : Command)
  | both (first second : Command)
  | either (first second : Command)
  | sequence (first second : Command)
  | branch (condition first second : Command)
  | each (name : String) (words : List Word) (body : Command)
  /-- A body that is repeated as long as the condition ends as wanted. -/
  | loop (wanted : Bool) (condition body : Command)
  deriving Inhabited

/-! ## Reading -/

/-- The text of a word that is neither quoted nor expanded. -/
def bareText? : Word → Option String
  | [.text chars false] => some (String.ofList chars)
  | _ => none

/-- The word that opens or closes a compound command. -/
def keyword? : List Lexeme → Option String
  | .word w :: _ => bareText? w
  | _ => none

/-- Whether a list of commands ends here. -/
def endsList (ls : List Lexeme) : Bool :=
  match ls with
  | [] => true
  | .closing :: _ => true
  | _ => (keyword? ls).any
      ["then", "elif", "else", "fi", "do", "done", "\x7d"].contains

/-- What follows some ends of lines. -/
def skipLines (ls : List Lexeme) : List Lexeme := ls.dropWhile (· = .lineEnd)

/-- What follows a keyword. -/
def expect? (keyword : String) (ls : List Lexeme) : Option (List Lexeme) :=
  if keyword? ls = some keyword then some ls.tail else none

/-- The stream that a redirection is about when it names none. -/
def standardStream : Direction → Nat
  | .input => 0
  | _ => 1

/-- The redirections at the start of some lexemes. -/
def redirections : List Lexeme → Option (List Redirection × List Lexeme)
  | .redirect stream direction :: .word target :: rest => do
    let (more, rest) ← redirections rest
    return (⟨stream.getD (standardStream direction), direction, target⟩ :: more, rest)
  | .redirect _ _ :: _ => none
  | rest => some ([], rest)

/-- The words and redirections of a simple command. -/
def simpleParts : List Lexeme → Option (List Word × List Redirection × List Lexeme)
  | .word w :: rest => do
    let (words, more, rest) ← simpleParts rest
    return (w :: words, more, rest)
  | .redirect stream direction :: .word target :: rest => do
    let (words, more, rest) ← simpleParts rest
    return (words, ⟨stream.getD (standardStream direction), direction, target⟩ :: more, rest)
  | .redirect _ _ :: _ => none
  | rest => some ([], [], rest)

/-- The words up to the end of a line. -/
def wordsOfLine : List Lexeme → List Word × List Lexeme
  | .word w :: rest =>
    let (words, rest) := wordsOfLine rest
    (w :: words, rest)
  | .semicolon :: rest => ([], rest)
  | rest => ([], rest)

/-- A reading of a command at the start of some lexemes. -/
abbrev Reading := Option (Command × List Lexeme)

mutual

/-- A list of commands, at most `fuel` deep. -/
def readList : Nat → List Lexeme → Reading
  | 0, _ => none
  | fuel + 1, ls =>
    let ls := skipLines ls
    if endsList ls then some (.nothing, ls)
    else do
      let (first, ls) ← readJoined fuel ls
      match ls with
      | .semicolon :: ls => readMore fuel first ls
      | .lineEnd :: ls => readMore fuel first ls
      | .background :: ls => readMore fuel first ls
      | ls => return (first, ls)

/-- The rest of a list behind its first command. -/
def readMore : Nat → Command → List Lexeme → Reading
  | 0, _, _ => none
  | fuel + 1, first, ls => do
    let (rest, ls) ← readList fuel ls
    return (match rest with
      | .nothing => first
      | rest => .sequence first rest, ls)

/-- A list of commands with something in it. -/
def readBody : Nat → List Lexeme → Reading
  | 0, _ => none
  | fuel + 1, ls => do
    match ← readList fuel ls with
    | (.nothing, _) => none
    | result => return result

/-- Commands joined by `&&` and `||`. -/
def readJoined : Nat → List Lexeme → Reading
  | 0, _ => none
  | fuel + 1, ls => do
    let (first, ls) ← readPipe fuel ls
    readJoin fuel first ls

/-- What is joined to a command. -/
def readJoin : Nat → Command → List Lexeme → Reading
  | 0, _, _ => none
  | fuel + 1, first, .both :: ls => do
    let (second, ls) ← readPipe fuel (skipLines ls)
    readJoin fuel (.both first second) ls
  | fuel + 1, first, .either :: ls => do
    let (second, ls) ← readPipe fuel (skipLines ls)
    readJoin fuel (.either first second) ls
  | _ + 1, first, ls => some (first, ls)

/-- Commands joined by `|`. -/
def readPipe : Nat → List Lexeme → Reading
  | 0, _ => none
  | fuel + 1, ls =>
    match expect? "!" ls with
    | some ls => (readPipe fuel ls).map fun (body, ls) => (.negated body, ls)
    | none => do
      let (first, ls) ← readCommand fuel ls
      match ls with
      | .pipe :: ls =>
        let (second, ls) ← readPipe fuel (skipLines ls)
        return (.pipe first second, ls)
      | ls => return (first, ls)

/-- A command by itself. -/
def readCommand : Nat → List Lexeme → Reading
  | 0, _ => none
  | fuel + 1, ls =>
    match ls with
    | .opening :: ls => do
      let (body, ls) ← readBody fuel ls
      match ls with
      | .closing :: ls => readGroup true body ls
      | _ => none
    | ls =>
      match keyword? ls with
      | some "\x7b" => do
        let (body, ls) ← readBody fuel ls.tail
        readGroup false body (← expect? "\x7d" ls)
      | some "if" => readBranch fuel ls.tail
      | some "while" => readLoop fuel true ls.tail
      | some "until" => readLoop fuel false ls.tail
      | some "for" => readEach fuel ls.tail
      | _ => do
        let (words, redirections, ls) ← simpleParts ls
        if words.isEmpty && redirections.isEmpty then none
        else return (.simple words redirections, ls)

/-- The redirections behind a group. -/
def readGroup (apart : Bool) (body : Command) (ls : List Lexeme) : Reading := do
  let (redirections, ls) ← redirections ls
  return (.group apart body redirections, ls)

/-- A condition and its branches. -/
def readBranch : Nat → List Lexeme → Reading
  | 0, _ => none
  | fuel + 1, ls => do
    let (condition, ls) ← readBody fuel ls
    let (first, ls) ← readBody fuel (← expect? "then" ls)
    match keyword? ls with
    | some "elif" =>
      let (second, ls) ← readBranch fuel ls.tail
      return (.branch condition first second, ls)
    | some "else" =>
      let (second, ls) ← readBody fuel ls.tail
      return (.branch condition first second, ← expect? "fi" ls)
    | _ => return (.branch condition first .nothing, ← expect? "fi" ls)

/-- A condition and the body that is repeated. -/
def readLoop : Nat → Bool → List Lexeme → Reading
  | 0, _, _ => none
  | fuel + 1, wanted, ls => do
    let (condition, ls) ← readBody fuel ls
    let (body, ls) ← readBody fuel (← expect? "do" ls)
    return (.loop wanted condition body, ← expect? "done" ls)

/-- A body that is done once for each of some words. -/
def readEach : Nat → List Lexeme → Reading
  | 0, _ => none
  | fuel + 1, ls => do
    let name ← keyword? ls
    let ls ← expect? "in" (skipLines ls.tail)
    let (words, ls) := wordsOfLine ls
    let (body, ls) ← readBody fuel (← expect? "do" (skipLines ls))
    return (.each name words body, ← expect? "done" ls)

end

/-- The command of a text, unless it breaks the rules of the language. -/
def parse? (text : String) : Option Command := do
  let ls ← lexemes? text
  match ← readList (8 * ls.length + 16) ls with
  | (command, []) => some command
  | _ => none

end WorkflowEngine.Shell
