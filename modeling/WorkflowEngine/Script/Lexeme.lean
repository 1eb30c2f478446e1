import WorkflowEngine.Script.Number

/-!
# Words of the expression language

A script is cut into lexemes: numbers, strings, names and signs.  Blanks and comments fall away,
but each lexeme remembers whether a line ended before it, since a line end may stand for a
semicolon.

* **`Lexeme`** — a word with that mark.
* **`Lexeme.ofChars?`** — the lexemes of a script; nothing when the script is malformed.
-/

namespace WorkflowEngine.Script

/-- The kinds of words. -/
inductive Token where
  | num (x : Float)
  | str (u : Units)
  | name (s : String)
  | sign (s : String)
  /-- A text with holes: the pieces of text and the sources of the holes between them. -/
  | template (parts : List Units) (holes : List (List Char))

/-- A word, and whether a line ended before it. -/
structure Lexeme where
  token : Token
  afterLine : Bool

namespace Lexeme

/-- The signs, longer ones before their beginnings. -/
def signs : List String :=
  [">>>=", "...", "===", "!==", ">>>", "<<=", ">>=", "**=", "&&=", "||=", "??=", "=>", "==", "!=",
    "<=", ">=", "&&", "||", "??", "++", "--", "+=", "-=", "*=", "/=", "%=", "&=", "|=", "^=", "<<",
    ">>", "**", "\x7b", "\x7d", "(", ")", "[", "]", ";", ",", "<", ">", "+", "-", "*", "/", "%",
    "&", "|", "^", "!", "~", "?", ":", "=", "."]

/-- The apostrophe. -/
def apostrophe : Char := Char.ofNat 39

/-- The quotation mark. -/
def quotation : Char := Char.ofNat 34

/-- The mark around texts with holes. -/
def backquote : Char := Char.ofNat 96

/-- Whether a character may open a name. -/
def opensName (c : Char) : Bool :=
  c.isAlpha || c == '$' || c == '_' || (0x80 ≤ c.toNat && !Text.isScriptSpace c)

/-- Whether a character may stand in a name. -/
def inName (c : Char) : Bool := opensName c || c.isDigit

/-- What follows a comment between `/*` and `*/`, and whether a line ended in it. -/
def skipComment : List Char → Option (Bool × List Char)
  | [] => none
  | '*' :: '/' :: rest => some (false, rest)
  | c :: rest => (skipComment rest).map fun (line, after) => (line || Text.isLineEnd c, after)

/-- What follows the blanks and comments at the start, and whether a line ended there. -/
def skipBlanks : Nat → Bool → List Char → Option (Bool × List Char)
  | 0, _, _ => none
  | _ + 1, line, [] => some (line, [])
  | fuel + 1, line, '/' :: '/' :: rest =>
    skipBlanks fuel line (rest.dropWhile (!Text.isLineEnd ·))
  | fuel + 1, line, '/' :: '*' :: rest =>
    match skipComment rest with
    | some (l, rest) => skipBlanks fuel (line || l) rest
    | none => none
  | fuel + 1, line, c :: rest =>
    if Text.isScriptSpace c then skipBlanks fuel (line || Text.isLineEnd c) rest
    else some (line, c :: rest)

/-- The value of some hexadecimal digits. -/
def hexValue? (cs : List Char) : Option Nat :=
  if cs.isEmpty then none
  else
    cs.foldlM (fun n c =>
      (Number.digit? 16 (UInt16.ofNat (min c.toNat 0xFFFF))).map (n * 16 + ·)) 0

/-- Whether a character is a digit of base eight. -/
def isOctal (c : Char) : Bool := '0' ≤ c && c ≤ '7'

/-- The units of an escape after its backslash, and what follows. -/
def escape : List Char → Option (Units × List Char)
  | [] => none
  | 'n' :: rest => some ([10], rest)
  | 't' :: rest => some ([9], rest)
  | 'r' :: rest => some ([13], rest)
  | 'b' :: rest => some ([8], rest)
  | 'f' :: rest => some ([12], rest)
  | 'v' :: rest => some ([11], rest)
  | 'x' :: a :: b :: rest => (hexValue? [a, b]).map fun n => (Units.ofCode n, rest)
  | 'x' :: _ => none
  | 'u' :: '\x7b' :: rest =>
    let digits := rest.takeWhile (· ≠ '\x7d')
    match hexValue? digits, rest.drop digits.length with
    | some n, _ :: after => if n ≤ 0x10FFFF then some (Units.ofCode n, after) else none
    | _, _ => none
  | 'u' :: a :: b :: c :: d :: rest =>
    (hexValue? [a, b, c, d]).map fun n => ([UInt16.ofNat n], rest)
  | 'u' :: _ => none
  | '\r' :: '\n' :: rest => some ([], rest)
  | c :: rest =>
    if Text.isLineEnd c then some ([], rest)
    else if isOctal c then
      let more := (rest.takeWhile isOctal).take (if c ≤ '3' then 2 else 1)
      let n := (c :: more).foldl (fun n d => n * 8 + (d.toNat - 48)) 0
      some ([UInt16.ofNat n], rest.drop more.length)
    else some (Units.ofCode c.toNat, rest)

/-- A string after its opening mark: its units and what follows the closing mark. -/
def stringBody (mark : Char) : Nat → List Char → Option (Units × List Char)
  | 0, _ => none
  | _ + 1, [] => none
  | fuel + 1, '\\' :: rest => do
    let (u, rest) ← escape rest
    let (us, rest) ← stringBody mark fuel rest
    some (u ++ us, rest)
  | fuel + 1, c :: rest =>
    if c == mark then some ([], rest)
    else if c == '\n' || c == '\r' then none
    else do
      let (us, rest) ← stringBody mark fuel rest
      some (Units.ofCode c.toNat ++ us, rest)

/-- The source of a hole of a text up to its closing brace, and what follows the brace. -/
def holeBody : Nat → Nat → Option Char → List Char → Option (List Char × List Char)
  | 0, _, _, _ => none
  | _ + 1, _, _, [] => none
  | fuel + 1, depth, some mark, '\\' :: c :: rest => do
    let (cs, rest) ← holeBody fuel depth (some mark) rest
    some ('\\' :: c :: cs, rest)
  | fuel + 1, depth, some mark, c :: rest => do
    let (cs, rest) ← holeBody fuel depth (if c == mark then none else some mark) rest
    some (c :: cs, rest)
  | fuel + 1, depth, none, c :: rest =>
    if c == '\x7d' && depth == 0 then some ([], rest)
    else do
      let depth :=
        if c == '\x7b' then depth + 1 else if c == '\x7d' then depth - 1 else depth
      let mark := if c == quotation || c == apostrophe || c == backquote then some c else none
      let (cs, rest) ← holeBody fuel depth mark rest
      some (c :: cs, rest)

/-- A text with holes after its opening mark: pieces, holes and what follows. -/
def templateBody : Nat → Units → List Char →
    Option (List Units × List (List Char) × List Char)
  | 0, _, _ => none
  | _ + 1, _, [] => none
  | fuel + 1, piece, '\\' :: rest => do
    let (u, rest) ← escape rest
    templateBody fuel (piece ++ u) rest
  | fuel + 1, piece, '$' :: '\x7b' :: rest => do
    let (hole, rest) ← holeBody (rest.length + 1) 0 none rest
    let (parts, holes, rest) ← templateBody fuel [] rest
    some (piece :: parts, hole :: holes, rest)
  | fuel + 1, piece, '\r' :: '\n' :: rest => templateBody fuel (piece ++ [10]) rest
  | fuel + 1, piece, c :: rest =>
    if c == backquote then some ([piece], [], rest)
    else templateBody fuel (piece ++ Units.ofCode (if c == '\r' then 10 else c.toNat)) rest

/-- A number at the start of a script.  A leading zero before further octal digits selects base
eight. -/
def number (cs : List Char) : Option (Float × List Char) := do
  let units := cs.map fun c => UInt16.ofNat (min c.toNat 0xFFFF)
  let based (base skip : Nat) : Option (Float × List Char) :=
    let (ds, _) := Number.takeDigits base (units.drop skip)
    if ds.isEmpty then none
    else some (Number.ofNat (Number.digitsValue base ds), cs.drop (skip + ds.length))
  let (x, rest) ← match cs with
    | '0' :: c :: _ =>
      if c == 'x' || c == 'X' then based 16 2
      else if c == 'o' || c == 'O' then based 8 2
      else if c == 'b' || c == 'B' then based 2 2
      else if c.isDigit then
        let ds := cs.takeWhile Char.isDigit
        if ds.all isOctal then based 8 1 else based 10 0
      else (Number.takeDecimal units).map fun (x, rest) => (x, cs.drop (cs.length - rest.length))
    | _ => (Number.takeDecimal units).map fun (x, rest) => (x, cs.drop (cs.length - rest.length))
  match rest with
  | c :: _ => if inName c then none else some (x, rest)
  | [] => some (x, [])

/-- The word at the start of a script that opens with neither a blank nor a comment. -/
def firstToken (cs : List Char) : Option (Token × List Char) :=
  match cs with
  | [] => none
  | c :: rest =>
    if c == quotation || c == apostrophe then
      (stringBody c (rest.length + 1) rest).map fun (u, rest) => (.str u, rest)
    else if c == backquote then
      (templateBody (rest.length + 1) [] rest).map fun (parts, holes, rest) =>
        (.template parts holes, rest)
    else if c.isDigit || (c == '.' && (rest.head?.elim false Char.isDigit)) then
      (number cs).map fun (x, rest) => (.num x, rest)
    else if opensName c then
      some (.name (String.ofList (cs.takeWhile inName)), cs.dropWhile inName)
    else
      (signs.find? fun s => s.toList.isPrefixOf cs).map fun s => (.sign s, cs.drop s.length)

/-- The lexemes of a script, at most `fuel` of them. -/
def ofCharsFrom : Nat → List Char → Option (List Lexeme)
  | 0, _ => none
  | fuel + 1, cs => do
    let (line, cs) ← skipBlanks (cs.length + 1) false cs
    if cs.isEmpty then some []
    else
      let (t, rest) ← firstToken cs
      let more ← ofCharsFrom fuel rest
      some (⟨t, line⟩ :: more)

/-- The lexemes of a script; nothing when the script is malformed. -/
def ofChars? (cs : List Char) : Option (List Lexeme) := ofCharsFrom (cs.length + 1) cs

end Lexeme

end WorkflowEngine.Script
