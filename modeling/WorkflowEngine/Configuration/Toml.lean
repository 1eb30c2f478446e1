import WorkflowEngine.Decimal.Nearest
import WorkflowEngine.Json.Parser
import WorkflowEngine.OrderedMap

/-!
# Settings in TOML

A configuration file is written in TOML.  Every setting is a text or a number, and the only table is
the one of environment variables, whose values are texts.  So the reader takes that part of the
language: all ways to write keys, strings, integers and floating point numbers, comments, the table
as a section, as an inline table and by dotted keys.  A file with anything else holds no
configuration, whatever it means otherwise.

* **`Setting`** — the value of a setting.
* **`Settings`** — the settings of a file and its variables.
* **`Settings.parse?`** — reading.
-/

namespace WorkflowEngine.Toml

/-- The value of a setting. -/
inductive Setting where
  | text (s : String)
  | integer (n : Int)
  | number (x : Float)
  /-- An inline table of texts. -/
  | table (entries : List (String × String))
  deriving Inhabited

/-! ## Blanks and comments -/

/-- Whether a character may stand between the words of a line. -/
def isBlank (c : Char) : Bool := c == ' ' || c == '\t'

/-- Whether a character may stand in a comment or a string. -/
def isPrintable (c : Char) : Bool := c == '\t' || (0x20 ≤ c.toNat && c.toNat != 0x7F)

/-- Drops blanks. -/
def skipBlanks (cs : List Char) : List Char := cs.dropWhile isBlank

/-- Drops a comment. -/
def skipComment : List Char → List Char
  | '#' :: rest => rest.dropWhile isPrintable
  | cs => cs

/-- What follows the end of a line: blanks, a comment, and a line break or the end of the file. -/
def endLine? (cs : List Char) : Option (List Char) :=
  match skipComment (skipBlanks cs) with
  | [] => some []
  | '\n' :: rest => some rest
  | '\r' :: '\n' :: rest => some rest
  | _ => none

/-! ## Strings -/

/-- The number of some hexadecimal digits. -/
def hexNumber? (cs : List Char) : Option Nat :=
  cs.foldlM (fun n c => (Json.hexValue? c).map (n * 16 + ·)) 0

/-- The character with a number. -/
def charOf? (n : Nat) : Option Char :=
  if n < 0xD800 || (0xDFFF < n && n < 0x110000) then some (Char.ofNat n) else none

/-- Reads an escape after its backslash. -/
def escape? : List Char → Option (Char × List Char)
  | 'u' :: rest => do
    if (rest.take 4).length < 4 then none
    return (← charOf? (← hexNumber? (rest.take 4)), rest.drop 4)
  | 'U' :: rest => do
    if (rest.take 8).length < 8 then none
    return (← charOf? (← hexNumber? (rest.take 8)), rest.drop 8)
  | c :: rest =>
    if c == '/' then none else (Json.simpleEscape? c).map fun d => (d, rest)
  | [] => none

/-- Reads a string between quotation marks, after the first. -/
def basic : Nat → List Char → Option (List Char × List Char)
  | 0, _ => none
  | fuel + 1, cs =>
    match cs with
    | '"' :: rest => some ([], rest)
    | '\\' :: rest => do
      let (c, rest) ← escape? rest
      let (text, rest) ← basic fuel rest
      return (c :: text, rest)
    | c :: rest => do
      if !isPrintable c then none
      let (text, rest) ← basic fuel rest
      return (c :: text, rest)
    | [] => none

/-- Reads a string between apostrophes, after the first. -/
def literal (cs : List Char) : Option (List Char × List Char) :=
  let text := cs.takeWhile fun c => isPrintable c && c.toNat != 39
  match cs.drop text.length with
  | c :: rest => if c.toNat == 39 then some (text, rest) else none
  | [] => none

/-- The line break at the start of a text. -/
def lineBreak? : List Char → Option (List Char × List Char)
  | '\n' :: rest => some (['\n'], rest)
  | '\r' :: '\n' :: rest => some (['\r', '\n'], rest)
  | _ => none

/-- Drops the line break that directly follows the opening of a string over several lines. -/
def skipFirstBreak (cs : List Char) : List Char := ((lineBreak? cs).map Prod.snd).getD cs

/-- Whether a character is white space within a string over several lines. -/
def isWide (c : Char) : Bool := isBlank c || c == '\n' || c == '\r'

/-- Reads a string over several lines, closed by three marks; up to two more marks in front of these
belong to the string.  Only in a string between quotation marks (`escapes`) is a backslash special: it
opens an escape, or hides a line break and the white space that follows. -/
def multiLine (mark : Char) (escapes : Bool) : Nat → List Char → Option (List Char × List Char)
  | 0, _ => none
  | fuel + 1, cs =>
    let marks := cs.takeWhile (· = mark)
    if 3 ≤ marks.length then
      if marks.length ≤ 5 then some (marks.drop 3, cs.drop marks.length) else none
    else
      match lineBreak? cs with
      | some (broken, rest) => do
        let (text, rest) ← multiLine mark escapes fuel rest
        return (broken ++ text, rest)
      | none =>
        match cs with
        | [] => none
        | c :: rest =>
          if escapes && c == '\\' then
            match lineBreak? (skipBlanks rest) with
            | some (_, rest) => multiLine mark escapes fuel (rest.dropWhile isWide)
            | none => do
              let (c, rest) ← escape? rest
              let (text, rest) ← multiLine mark escapes fuel rest
              return (c :: text, rest)
          else do
            if !isPrintable c then none
            let (text, rest) ← multiLine mark escapes fuel rest
            return (c :: text, rest)

/-- The apostrophe. -/
def apostrophe : Char := Char.ofNat 39

/-- The quotation mark. -/
def quotation : Char := Char.ofNat 34

/-- Reads a string of any kind. -/
def string? (cs : List Char) : Option (String × List Char) :=
  let fuel := cs.length + 1
  let found :=
    if (List.replicate 3 quotation).isPrefixOf cs then
      multiLine quotation true fuel (skipFirstBreak (cs.drop 3))
    else if (List.replicate 3 apostrophe).isPrefixOf cs then
      multiLine apostrophe false fuel (skipFirstBreak (cs.drop 3))
    else if cs.head? = some quotation then basic fuel (cs.drop 1)
    else if cs.head? = some apostrophe then literal (cs.drop 1)
    else none
  found.map fun (text, rest) => (String.ofList text, rest)

/-! ## Numbers -/

/-- The digits of a number in which single underscores stand between digits. -/
def plainDigits? (isDigit : Char → Bool) : List Char → Option (List Char)
  | [] => none
  | [c] => if isDigit c then some [c] else none
  | c :: '_' :: d :: rest =>
    if isDigit c && isDigit d then (plainDigits? isDigit (d :: rest)).map (c :: ·) else none
  | c :: rest => if isDigit c then (plainDigits? isDigit rest).map (c :: ·) else none

/-- The number of some digits in a base. -/
def digitsNumber (base : Nat) (cs : List Char) : Nat :=
  cs.foldl (fun n c => n * base + (Json.hexValue? c).getD 0) 0

/-- Whether a character is a digit of a base up to 16. -/
def isDigitOf (base : Nat) (c : Char) : Bool := (Json.hexValue? c).any (· < base)

/-- An integer that fits into 64 bits with a sign. -/
def integer? (n : Int) : Option Setting := if fitsSigned n then some (.integer n) else none

/-- The base of a prefix of two characters. -/
def base? : List Char → Option (Nat × List Char)
  | '0' :: 'x' :: rest => some (16, rest)
  | '0' :: 'o' :: rest => some (8, rest)
  | '0' :: 'b' :: rest => some (2, rest)
  | _ => none

/-- A sign and what follows it. -/
def takeSign : List Char → Bool × List Char
  | '-' :: rest => (true, rest)
  | '+' :: rest => (false, rest)
  | cs => (false, cs)

/-- The digits of a whole part, which does not start with a zero that is not alone. -/
def wholePart? (cs : List Char) : Option (List Char) := do
  let ds ← plainDigits? Char.isDigit cs
  if ds.length > 1 && ds.head? == some '0' then none else some ds

/-- The number of an exponent. -/
def exponent? : List Char → Option Int
  | [] => some 0
  | _ :: rest => do
    let (negative, digits) := takeSign rest
    let n : Int := digitsNumber 10 (← plainDigits? Char.isDigit digits)
    return if negative then -n else n

/-- A floating point number without its sign. -/
def float? (cs : List Char) : Option Float := do
  let isMark := fun (c : Char) => c == 'e' || c == 'E'
  let (mantissa, exponent) := (cs.takeWhile (!isMark ·), cs.dropWhile (!isMark ·))
  let whole ← wholePart? (mantissa.takeWhile (· ≠ '.'))
  let fraction ← match mantissa.dropWhile (· ≠ '.') with
    | [] => some []
    | _ :: digits => plainDigits? Char.isDigit digits
  let e ← exponent? exponent
  return Decimal.nearest (digitsNumber 10 (whole ++ fraction)) (e - fraction.length)

/-- The number of a word.  A number that is too large is refused unless it is negative. -/
def number? (cs : List Char) : Option Setting :=
  match base? cs with
  | some (base, digits) => do
    integer? (digitsNumber base (← plainDigits? (isDigitOf base) digits))
  | none =>
    let (negative, digits) := takeSign cs
    let signed := fun (x : Float) => if negative then -x else x
    if digits == "inf".toList then some (.number (signed (1.0 / 0.0)))
    else if digits == "nan".toList then some (.number (0.0 / 0.0))
    else if digits.any fun c => c == '.' || c == 'e' || c == 'E' then do
      let x ← float? digits
      if x.isInf && !negative then none else some (.number (signed x))
    else do
      let n : Int := digitsNumber 10 (← wholePart? digits)
      integer? (if negative then -n else n)

/-- Whether a character ends a number. -/
def endsWord (c : Char) : Bool := isWide c || c == ',' || c == '#' || c == ']' || c == '\x7d'

/-! ## Keys -/

/-- Whether a character may stand in a key without quotation marks. -/
def isKeyChar (c : Char) : Bool := c.isAlphanum || c == '_' || c == '-'

/-- Reads a part of a key. -/
def keyPart? (cs : List Char) : Option (String × List Char) :=
  match cs with
  | [] => none
  | c :: rest =>
    let found :=
      if c = quotation then basic (rest.length + 1) rest
      else if c = apostrophe then literal rest
      else
        let name := cs.takeWhile isKeyChar
        if name.isEmpty then none else some (name, cs.drop name.length)
    found.map fun (name, rest) => (String.ofList name, rest)

/-- Reads a key: parts between dots. -/
def key? : Nat → List Char → Option (List String × List Char)
  | 0, _ => none
  | fuel + 1, cs => do
    let (part, rest) ← keyPart? (skipBlanks cs)
    match skipBlanks rest with
    | '.' :: rest =>
      let (parts, rest) ← key? fuel rest
      return (part :: parts, rest)
    | rest => return ([part], rest)

/-- Reads a key and the equals sign behind it. -/
def keyAndSign? (cs : List Char) : Option (List String × List Char) := do
  match ← key? (cs.length + 1) cs with
  | (key, '=' :: rest) => return (key, skipBlanks rest)
  | _ => none

/-! ## Values -/

/-- Reads the entries of an inline table up to its closing brace. -/
def entries? : Nat → List Char → Option (List (String × String) × List Char)
  | 0, _ => none
  | fuel + 1, cs => do
    let (key, rest) ← keyAndSign? cs
    let (text, rest) ← string? rest
    let entry ← match key with
      | [name] => some (name, text)
      | _ => none
    match skipBlanks rest with
    | ',' :: rest =>
      let (more, rest) ← entries? fuel rest
      return (entry :: more, rest)
    | '\x7d' :: rest => return ([entry], rest)
    | _ => none

/-- Reads a value. -/
def value? (cs : List Char) : Option (Setting × List Char) :=
  match cs with
  | '\x7b' :: rest =>
    match skipBlanks rest with
    | '\x7d' :: rest => some (.table [], rest)
    | rest => (entries? (rest.length + 1) rest).map fun (es, rest) => (.table es, rest)
  | c :: rest =>
    if c = quotation ∨ c = apostrophe then
      (string? (c :: rest)).map fun (text, rest) => (.text text, rest)
    else
      let word := (c :: rest).takeWhile (!endsWord ·)
      (number? word).map fun v => (v, (c :: rest).drop word.length)
  | [] => none

/-! ## Files -/

/-- How the table of variables has been opened. -/
inductive TableForm where
  | absent
  /-- By dotted keys, to which more can be added. -/
  | dotted
  /-- As a section or an inline table, once and for all. -/
  | closed
  deriving DecidableEq, Inhabited

/-- What has been read of a file. -/
structure Settings where
  fields : OrderedMap Setting
  environment : OrderedMap String
  form : TableForm
  /-- Whether the lines that follow belong to the table of variables. -/
  inVariables : Bool
  deriving Inhabited

namespace Settings

/-- Nothing. -/
def empty : Settings := ⟨[], [], .absent, false⟩

/-- The name of the table of variables. -/
def variablesName : String := "env_vars"

/-- Adds a variable. -/
def addVariable? (s : Settings) (name text : String) : Option Settings :=
  if s.environment.contains name then none
  else some { s with environment := s.environment ++ [(name, text)] }

/-- Adds a setting. -/
def add? (s : Settings) (key : List String) (value : Setting) : Option Settings :=
  match s.inVariables, key, value with
  | true, [name], .text text => s.addVariable? name text
  | true, _, _ => none
  | false, [name], value =>
    if name = variablesName then
      match s.form, value with
      | .absent, .table entries =>
        entries.foldlM (fun s (name, text) => s.addVariable? name text) { s with form := .closed }
      | _, _ => none
    else if s.fields.contains name then none
    else some { s with fields := s.fields ++ [(name, value)] }
  | false, [table, name], .text text =>
    if table = variablesName ∧ s.form ≠ .closed then
      ({ s with form := .dotted }).addVariable? name text
    else none
  | false, _, _ => none

/-- Opens the table of variables as a section. -/
def openSection? (s : Settings) (key : List String) : Option Settings :=
  if key = [variablesName] ∧ s.form = .absent then
    some { s with form := .closed, inVariables := true }
  else none

/-- Reads a line that is not blank. -/
def line? (s : Settings) (cs : List Char) : Option (Settings × List Char) := do
  match cs with
  | '[' :: rest =>
    let (key, rest) ← key? (rest.length + 1) rest
    match rest with
    | ']' :: rest => return (← s.openSection? key, ← endLine? rest)
    | _ => none
  | cs =>
    let (key, rest) ← keyAndSign? cs
    let (value, rest) ← value? rest
    return (← s.add? key value, ← endLine? rest)

/-- Reads lines up to the end of the file. -/
def lines? : Nat → Settings → List Char → Option Settings
  | 0, _, _ => none
  | fuel + 1, s, cs =>
    let cs := skipBlanks cs
    if cs.isEmpty then some s
    else
      match endLine? cs with
      | some rest => lines? fuel s rest
      | none => do
        let (s, rest) ← line? s cs
        lines? fuel s rest

/-- The settings of a text; a byte order mark at its start is passed over. -/
def parse? (text : String) : Option Settings :=
  let cs := match text.toList with
    | c :: rest => if c.toNat = 0xFEFF then rest else c :: rest
    | [] => []
  lines? (cs.length + 1) empty cs

end Settings

end WorkflowEngine.Toml
