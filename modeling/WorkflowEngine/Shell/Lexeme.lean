/-!
# Lexemes of a shell text

The text of a command line is read character by character.  Blanks and operators end a word; a
quotation mark, an apostrophe and a backslash take away the meaning of what follows them; a dollar
sign and a grave accent open an expansion, also within quotation marks.

* **`Piece`**, **`Word`** — a word with what is quoted in it and what is expanded.
* **`Lexeme`** — a word, an operator or the end of a line.
* **`Reader.step`** — the reader after one more character; **`readAll_append`** reads a text in parts.
* **`lexemes?`** — the lexemes of a text that is not cut off within quotes.
-/

namespace WorkflowEngine.Shell

/-! ## Words -/

/-- A piece of a word. -/
inductive Piece where
  | text (chars : List Char) (quoted : Bool)
  /-- A variable: what stands behind a dollar sign, or between braces behind it. -/
  | variable (name : String) (quoted : Bool)
  /-- The output of another text. -/
  | command (source : String) (quoted : Bool)
  deriving Repr, DecidableEq, Inhabited

/-- A word. -/
abbrev Word := List Piece

/-- Puts a character behind the pieces of a word. -/
def addChar (quoted : Bool) (c : Char) : Word → Word
  | [] => [.text [c] quoted]
  | [.text chars q] => if q = quoted then [.text (chars ++ [c]) q] else [.text chars q, .text [c] quoted]
  | piece :: rest => piece :: addChar quoted c rest

/-- What a redirection does with a stream. -/
inductive Direction where
  | input
  | output
  | append
  | duplicate
  deriving Repr, DecidableEq, Inhabited

/-- A lexeme. -/
inductive Lexeme where
  | word (pieces : Word)
  /-- A redirection of a stream that may be named by its number. -/
  | redirect (stream : Option Nat) (direction : Direction)
  | pipe
  | both
  | either
  | semicolon
  | background
  | lineEnd
  | opening
  | closing
  deriving Repr, DecidableEq, Inhabited

/-! ## The reader -/

/-- What the reader is in the middle of. -/
inductive Mode where
  /-- Between lexemes. -/
  | blank
  | word
  /-- Behind a backslash outside quotes. -/
  | escaped
  /-- Between apostrophes. -/
  | single
  /-- Between quotation marks. -/
  | double
  /-- Behind a backslash between quotation marks. -/
  | doubleEscaped
  /-- Behind a dollar sign. -/
  | dollar (quoted : Bool)
  | name (chars : List Char) (quoted : Bool)
  | braced (chars : List Char) (quoted : Bool)
  /-- Between parentheses behind a dollar sign, with the number of those still open. -/
  | parenthesized (depth : Nat) (source : List Char) (quoted : Bool)
  | graves (escaped : Bool) (source : List Char) (quoted : Bool)
  /-- Behind the first character of an operator. -/
  | operator (first : Char) (stream : Option Nat)
  | comment
  /-- Behind something that cannot be read. -/
  | refused
  deriving Repr, DecidableEq, Inhabited

/-- A reader: what it is in the middle of, the pieces of the word it reads, and what it has read. -/
structure Reader where
  mode : Mode
  word : Word
  done : List Lexeme
  deriving Repr, DecidableEq, Inhabited

/-- The quotation mark. -/
def quotationMark : Char := Char.ofNat 34

/-- The grave accent. -/
def graveAccent : Char := Char.ofNat 96

/-- Whether a character can open the name of a variable. -/
def isNameStart (c : Char) : Bool := c.isAlpha || c == '_'

/-- Whether a character can stand in the name of a variable. -/
def isNameChar (c : Char) : Bool := c.isAlphanum || c == '_'

/-- Whether a character is the whole name of a variable. -/
def isShortName (c : Char) : Bool := c.isDigit || "?$#@*!-".toList.contains c

/-- Whether a backslash between quotation marks takes away the meaning of a character. -/
def isEscapable (c : Char) : Bool :=
  c == '$' || c == graveAccent || c == quotationMark || c == '\\'

/-- The number of a stream that a word stands for in front of a redirection. -/
def streamNumber? : Word → Option Nat
  | [.text [c] false] => if c.isDigit then some (c.toNat - '0'.toNat) else none
  | _ => none

namespace Reader

/-- A reader at the start of a text. -/
def start : Reader := ⟨.blank, [], []⟩

/-- Ends the word that is being read, if any. -/
def flush (r : Reader) : Reader :=
  match r.mode with
  | .blank => r
  | _ => ⟨.blank, [], r.done ++ [.word r.word]⟩

/-- Adds a lexeme. -/
def emit (r : Reader) (lexeme : Lexeme) : Reader := { r with done := r.done ++ [lexeme] }

/-- Adds a character to the word. -/
def add (r : Reader) (quoted : Bool) (c : Char) : Reader :=
  { r with word := addChar quoted c r.word }

/-- Adds a piece to the word. -/
def push (r : Reader) (piece : Piece) : Reader := { r with word := r.word ++ [piece] }

/-- Sets what the reader is in the middle of. -/
def goto (r : Reader) (mode : Mode) : Reader := { r with mode }

/-- Opens an operator; a digit in front of a redirection belongs to it. -/
def openOperator (r : Reader) (c : Char) : Reader :=
  match r.mode, streamNumber? r.word with
  | .word, some n =>
    if c = '<' ∨ c = '>' then ⟨.operator c (some n), [], r.done⟩ else r.flush.goto (.operator c none)
  | _, _ => r.flush.goto (.operator c none)

/-- Reads a character outside quotes. -/
def plain (r : Reader) (c : Char) : Reader :=
  if c = ' ' ∨ c = '\t' then r.flush
  else if c = '\n' then r.flush.emit .lineEnd
  else if c = quotationMark then (r.push (.text [] true)).goto .double
  else if c = '\'' then (r.push (.text [] true)).goto .single
  else if c = '\\' then r.goto .escaped
  else if c = '$' then r.goto (.dollar false)
  else if c = graveAccent then r.goto (.graves false [] false)
  else if c = '(' then r.flush.emit .opening
  else if c = ')' then r.flush.emit .closing
  else if c = '<' ∨ c = '>' ∨ c = '&' ∨ c = '|' ∨ c = ';' then r.openOperator c
  else (r.add false c).goto .word

/-- Reads a character between quotation marks. -/
def inDouble (r : Reader) (c : Char) : Reader :=
  if c = quotationMark then r.goto .word
  else if c = '\\' then r.goto .doubleEscaped
  else if c = '$' then r.goto (.dollar true)
  else if c = graveAccent then r.goto (.graves false [] true)
  else (r.add true c).goto .double

/-- The mode to which the reader goes back behind an expansion. -/
def around (quoted : Bool) : Mode := if quoted then .double else .word

/-- Reads a character behind an expansion that it does not belong to. -/
def resume (r : Reader) (quoted : Bool) (c : Char) : Reader :=
  let r := r.goto (around quoted)
  if quoted then r.inDouble c else r.plain c

/-- Reads a character behind a dollar sign. -/
def behindDollar (r : Reader) (quoted : Bool) (c : Char) : Reader :=
  if isNameStart c then r.goto (.name [c] quoted)
  else if c = '\x7b' then r.goto (.braced [] quoted)
  else if c = '(' then r.goto (.parenthesized 1 [] quoted)
  else if isShortName c then
    (r.push (.variable (String.singleton c) quoted)).goto (around quoted)
  else (r.add quoted '$').resume quoted c

/-- Reads a character behind the first one of an operator. -/
def inOperator (r : Reader) (first : Char) (stream : Option Nat) (c : Char) : Reader :=
  let r := r.goto .blank
  if first = '>' then
    if c = '>' then r.emit (.redirect stream .append)
    else if c = '&' then r.emit (.redirect (some (stream.getD 1)) .duplicate)
    else if c = '|' then r.emit (.redirect stream .output)
    else (r.emit (.redirect stream .output)).plain c
  else if first = '<' then
    if c = '&' then r.emit (.redirect (some (stream.getD 0)) .duplicate)
    else if c = '<' ∨ c = '>' then r.goto .refused
    else (r.emit (.redirect stream .input)).plain c
  else if first = '&' then
    if c = '&' then r.emit .both else (r.emit .background).plain c
  else if first = '|' then
    if c = '|' then r.emit .either else (r.emit .pipe).plain c
  else if c = ';' then r.goto .refused
  else (r.emit .semicolon).plain c

/-- The reader after one more character. -/
def step (r : Reader) (c : Char) : Reader :=
  match r.mode with
  | .blank => if c = '#' then r.goto .comment else r.plain c
  | .word => r.plain c
  | .escaped =>
    if c = '\n' then r.goto (if r.word = [] then .blank else .word)
    else (r.add true c).goto .word
  | .single => if c = '\'' then r.goto .word else r.add true c
  | .double => r.inDouble c
  | .doubleEscaped =>
    if isEscapable c then (r.add true c).goto .double
    else if c = '\n' then r.goto .double
    else ((r.add true '\\').add true c).goto .double
  | .dollar quoted => r.behindDollar quoted c
  | .name chars quoted =>
    if isNameChar c then r.goto (.name (chars ++ [c]) quoted)
    else (r.push (.variable (String.ofList chars) quoted)).resume quoted c
  | .braced chars quoted =>
    if c = '\x7d' then
      (r.push (.variable (String.ofList chars) quoted)).goto (around quoted)
    else r.goto (.braced (chars ++ [c]) quoted)
  | .parenthesized depth source quoted =>
    if c = ')' ∧ depth ≤ 1 then
      (r.push (.command (String.ofList source) quoted)).goto (around quoted)
    else
      let depth := if c = '(' then depth + 1 else if c = ')' then depth - 1 else depth
      r.goto (.parenthesized depth (source ++ [c]) quoted)
  | .graves false source quoted =>
    if c = graveAccent then
      (r.push (.command (String.ofList source) quoted)).goto (around quoted)
    else if c = '\\' then r.goto (.graves true source quoted)
    else r.goto (.graves false (source ++ [c]) quoted)
  | .graves true source quoted =>
    let isPlain := c = '$' ∨ c = graveAccent ∨ c = '\\' ∨ (quoted ∧ c = quotationMark)
    r.goto (.graves false (source ++ (if isPlain then [c] else ['\\', c])) quoted)
  | .operator first stream => r.inOperator first stream c
  | .comment => if c = '\n' then (r.emit .lineEnd).goto .blank else r
  | .refused => r

/-- The reader after some more characters. -/
def readAll (r : Reader) (cs : List Char) : Reader := cs.foldl step r

/-- A text can be read in parts. -/
theorem readAll_append (r : Reader) (first second : List Char) :
    r.readAll (first ++ second) = (r.readAll first).readAll second := by
  simp [readAll]

/-- What has been read when the text ends here, unless it ends within quotes or an expansion. -/
def finish? (r : Reader) : Option (List Lexeme) :=
  match r.mode with
  | .blank => some r.done
  | .word => some r.flush.done
  | .escaped => some (r.add true '\\').flush.done
  | .dollar false => some (r.add false '$').flush.done
  | .name chars false => some (r.push (.variable (String.ofList chars) false)).flush.done
  | .operator _ _ => some ((r.step '\n').done.dropLast)
  | .comment => some r.done
  | _ => none

end Reader

/-- The lexemes of a text, unless it is cut off or holds something that cannot be read. -/
def lexemes? (text : String) : Option (List Lexeme) :=
  (Reader.start.readAll text.toList).finish?

end WorkflowEngine.Shell
