import WorkflowEngine.Text.Blank

/-!
# Placeholders in texts

A text may hold expressions between `$(` and the matching parenthesis; a backslash in front keeps
the two characters.  A text that is a single block between `${` and the matching brace is the body of
a function.  Brackets match as in the expression language: strings between quotation marks,
apostrophes or backquotes are passed over, and a backslash in one hides the next character.

* **`closeAt?`** — the place of the bracket that closes an opening one.
* **`scan`** — the pieces of a text.
* **`functionBody?`**, **`singlePlaceholder?`** — texts that are one expression.
-/

namespace WorkflowEngine.Placeholder

/-- A piece of a text. -/
inductive Part where
  /-- Characters that stand for themselves. -/
  | text (s : String)
  /-- The source of an expression. -/
  | code (s : String)
  deriving Repr, DecidableEq, Inhabited

/-- The bracket that closes an opening bracket. -/
def closing? (c : Char) : Option Char :=
  if c = '(' then some ')' else if c = '[' then some ']' else if c = '\x7b' then some '\x7d' else none

/-- Whether a character is a closing bracket. -/
def isClosing (c : Char) : Bool := c = ')' || c = ']' || c = '\x7d'

/-- Whether a character opens and closes strings. -/
def isQuote (c : Char) : Bool := c.toNat = 34 || c.toNat = 39 || c.toNat = 96

/-- The number of characters before the bracket that empties a stack of expected brackets; `quote`
is the mark of the string that is open. -/
def closeFrom (stack : List Char) (quote : Option Char) : List Char → Option Nat
  | [] => none
  | c :: rest =>
    match quote with
    | some q =>
      if c = '\\' then
        match rest with
        | [] => none
        | _ :: rest => (closeFrom stack (some q) rest).map (· + 2)
      else (closeFrom stack (if c = q then none else some q) rest).map (· + 1)
    | none =>
      if isQuote c then (closeFrom stack (some c) rest).map (· + 1)
      else
        match closing? c with
        | some close => (closeFrom (close :: stack) none rest).map (· + 1)
        | none =>
          if isClosing c then
            match stack with
            | top :: below =>
              if top ≠ c then none
              else if below.isEmpty then some 0
              else (closeFrom below none rest).map (· + 1)
            | [] => none
          else (closeFrom stack none rest).map (· + 1)

/-- The number of characters between an opening bracket and the one that closes it. -/
def closeAt? (opening : Char) (rest : List Char) : Option Nat :=
  (closing? opening).bind fun close => closeFrom [close] none rest

/-- Puts collected characters, last first, in front of some pieces. -/
def flush (literal : List Char) (parts : List Part) : List Part :=
  if literal.isEmpty then parts else .text (String.ofList literal.reverse) :: parts

/-- The pieces of a text, the characters before it collected last first; nothing when a parenthesis
is not closed. -/
def scanFrom (literal : List Char) : List Char → Option (List Part)
  | [] => some (flush literal [])
  | '\\' :: '$' :: '(' :: rest => scanFrom ('(' :: '$' :: literal) rest
  | '$' :: '(' :: rest =>
    match closeAt? '(' rest with
    | none => none
    | some n =>
      (scanFrom [] (rest.drop (n + 1))).map fun parts =>
        flush literal (.code (String.ofList (rest.take n)) :: parts)
  | c :: rest => scanFrom (c :: literal) rest
termination_by cs => cs.length
decreasing_by all_goals simp <;> omega

/-- The pieces of a text; nothing when a parenthesis is not closed. -/
def scan (text : String) : Option (List Part) := scanFrom [] text.toList

/-- The body of a text that is a single function block. -/
def functionBody? (text : String) : Option String :=
  match Text.trimList Text.isWhiteSpace text.toList with
  | '$' :: '\x7b' :: rest =>
    match closeAt? '\x7b' rest with
    | some n => if n + 1 = rest.length then some (String.ofList (rest.take n)) else none
    | none => none
  | _ => none

/-- The source of a text that is a single placeholder. -/
def singlePlaceholder? (text : String) : Option String :=
  let trimmed := Text.trimList Text.isWhiteSpace text.toList
  if ['$', '('].isPrefixOf trimmed then
    match scanFrom [] trimmed with
    | some [.code s] => some s
    | _ => none
  else none

end WorkflowEngine.Placeholder
