import WorkflowEngine.Files.Glob
import WorkflowEngine.Shell.Lexeme
import WorkflowEngine.Shell.Session

/-!
# Expansion of words

The variables and commands of a word are put in their places.  What comes from outside quotes is cut
at blanks, and a field that is then a pattern becomes the paths it stands for.

* **`Atom`** — a character of a word that is being expanded, or a place where it is cut.
* **`fieldsOf`** — the fields of a word.
* **`textOf`** — the text of a word that is never cut.
-/

namespace WorkflowEngine.Shell

/-! ## Atoms -/

/-- A part of a word that is being expanded. -/
inductive Atom where
  | char (c : Char) (quoted : Bool)
  /-- Nothing, but in quotes: it makes a field. -/
  | anchor
  | cut
  deriving Repr, DecidableEq, Inhabited

/-- The atoms of a text that is not cut. -/
def solid (quoted : Bool) (cs : List Char) : List Atom :=
  (if quoted then [.anchor] else []) ++ cs.map fun c => .char c quoted

/-- Whether fields are cut at a character. -/
def isFieldBlank (c : Char) : Bool := c == ' ' || c == '\t' || c == '\n'

/-- The atoms of what an expansion brings. -/
def brought (quoted : Bool) (text : String) : List Atom :=
  if quoted then solid true text.toList
  else text.toList.map fun c => if isFieldBlank c then .cut else .char c false

/-! ## Variables -/

/-- The value of a variable or of a special name. -/
def Session.lookup (s : Session) (name : String) : Option String :=
  if name = "?" then some (toString s.status)
  else if name = "$" then some (toString s.number)
  else if name = "#" then some (toString (s.arguments.length - 1))
  else if name = "@" ∨ name = "*" then some (" ".intercalate s.arguments.tail)
  else
    match name.toNat? with
    | some n => s.arguments[n]?
    | none => s.value? name

/-- The name at the start of what stands between braces, and what follows it. -/
def splitName (cs : List Char) : List Char × List Char :=
  match cs with
  | c :: rest =>
    if isShortName c then ([c], rest) else (cs.takeWhile isNameChar, cs.dropWhile isNameChar)
  | [] => ([], [])

/-- What stands for a variable, given what follows its name between the braces. -/
def Session.withDefault (s : Session) (name : String) (rest : List Char) : Option String :=
  let value := s.lookup name
  match rest with
  | [] => some (value.getD "")
  | ':' :: '-' :: other => some (match value with
    | some v => if v = "" then String.ofList other else v
    | none => String.ofList other)
  | '-' :: other => some (value.getD (String.ofList other))
  | ':' :: '+' :: other => some (match value with
    | some v => if v = "" then "" else String.ofList other
    | none => "")
  | '+' :: other => some (if value.isSome then String.ofList other else "")
  | _ => none

/-- What stands for a variable, unless what is written between the braces has no meaning. -/
def Session.standsFor? (s : Session) (written : String) : Option String :=
  match written.toList with
  | '#' :: c :: rest => some (toString ((s.lookup (String.ofList (c :: rest))).getD "").length)
  | cs =>
    let (name, rest) := splitName cs
    if name = [] then none else s.withDefault (String.ofList name) rest

/-- The arguments as fields of their own. -/
def separate : List String → List Atom
  | [] => []
  | [a] => solid true a.toList
  | a :: rest => solid true a.toList ++ .cut :: separate rest

/-- The atoms of a piece. -/
def atomsOf (substitute : String → Action String) : Piece → Action (List Atom)
  | .text cs quoted => pure (solid quoted cs)
  | .variable "@" true => do return separate (← get).arguments.tail
  | .variable written quoted => do
    match (← get).standsFor? written with
    | some text => return brought quoted text
    | none =>
      modify fun s => s.complain "sh: 1: Bad substitution"
      throw (.exit 2)
  | .command source quoted => do return brought quoted (← substitute source)

/-- A tilde at the start of a word stands for the home directory. -/
def expandTilde (s : Session) : Word → Word
  | .text ('~' :: rest) false :: more =>
    if rest = [] ∨ rest.head? = some '/' then
      .text ((s.value? "HOME").getD "~").toList true :: .text rest false :: more
    else .text ('~' :: rest) false :: more
  | w => w

/-- The atoms of a word. -/
def atoms (substitute : String → Action String) (w : Word) : Action (List Atom) := do
  let pieces := expandTilde (← get) w
  return (← pieces.mapM (atomsOf substitute)).flatten

/-! ## Fields -/

/-- The runs of atoms between cuts; an empty run is no field. -/
def runs (atoms : List Atom) : List (List Atom) :=
  (atoms.splitOnP (· = .cut)).filter (· ≠ [])

/-- The text of some atoms. -/
def plainText (atoms : List Atom) : String :=
  String.ofList (atoms.filterMap fun
    | .char c _ => some c
    | _ => none)

/-- Whether a field is a pattern of paths. -/
def isPattern (atoms : List Atom) : Bool :=
  atoms.any fun
    | .char c false => c == '*' || c == '?' || c == '['
    | _ => false

/-- A character of a pattern that stands for itself. -/
def literally (c : Char) : List Char :=
  if c = '*' ∨ c = '?' ∨ c = '[' then ['[', c, ']'] else [c]

/-- The text of a pattern. -/
def patternText (atoms : List Atom) : String :=
  String.ofList (atoms.flatMap fun
    | .char c quoted => if quoted then literally c else [c]
    | _ => [])

/-- Whether a path has a hidden name that its pattern does not spell out. -/
def hides (pattern path : String) : Bool :=
  let names := (Path.splitAt '/' path).filter (· ≠ "")
  let patterns := (Path.splitAt '/' pattern).filter (· ≠ "")
  (names.zip patterns).any fun (name, p) =>
    name.toList.head? = some '.' && p.toList.head? ≠ some '.'

/-- The paths that a field stands for, and the field itself when there are none. -/
def matching (files : FileTree) (atoms : List Atom) : List String :=
  let itself := plainText atoms
  let pattern := patternText atoms
  let here := Place.path files.current
  let opening := if Path.isAbsolute pattern then "" else here ++ "/"
  let quoted := String.ofList (opening.toList.flatMap literally)
  match Glob.glob files (quoted ++ pattern) with
  | .error _ => [itself]
  | .ok found =>
    let shown := (found.map fun path => String.ofList (path.toList.drop opening.length)).filter
      fun path => !hides pattern path
    if shown.isEmpty then [itself] else shown.mergeSort fun a b => decide (a ≤ b)

/-- The fields of a word. -/
def fieldsOf (substitute : String → Action String) (w : Word) : Action (List String) := do
  let found := runs (← atoms substitute w)
  let files := (← get).files
  return found.flatMap fun field =>
    if isPattern field then matching files field else [plainText field]

/-- The text of a word that is never cut. -/
def textOf (substitute : String → Action String) (w : Word) : Action String := do
  return plainText (← atoms substitute w)

end WorkflowEngine.Shell
