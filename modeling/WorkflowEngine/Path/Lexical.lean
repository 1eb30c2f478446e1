/-!
# Paths as text

Everything here works on the text of a path and asks no file system.  A path is a sequence of
components between slashes: doubled slashes, a trailing slash and a `.` that does not open a
relative path leave no component, and `..` is a component like a name.

* **`Component`**, **`components`** — the parts of a path.
* **`fileName?`**, **`parent?`** — the last name and what stands before it.
* **`join`** — a path seen from a directory.
* **`absolute?`**, **`startsWith`**, **`compare`** — lexical normal form, containment and order.
-/

namespace WorkflowEngine.Path

/-- A part of a path. -/
inductive Component where
  /-- The slash that opens an absolute path. -/
  | root
  /-- A `.` that opens a relative path. -/
  | current
  /-- A `..`. -/
  | up
  /-- A name. -/
  | normal (name : String)
  deriving Repr, DecidableEq, Inhabited

/-- Cuts a list at each occurrence of a character. -/
def splitChars (sep : Char) : List Char → List (List Char)
  | [] => [[]]
  | c :: rest =>
    if c = sep then [] :: splitChars sep rest
    else
      match splitChars sep rest with
      | [] => [[c]]
      | piece :: pieces => (c :: piece) :: pieces

/-- Cuts a text at each occurrence of a character. -/
def splitAt (sep : Char) (s : String) : List String :=
  (splitChars sep s.toList).map String.ofList

/-- Whether a path starts at the root. -/
def isAbsolute (path : String) : Bool := path.toList.head? == some '/'

/-- The component of a piece between slashes. -/
def componentOf (piece : String) : Option Component :=
  if piece = "" ∨ piece = "." then none
  else if piece = ".." then some .up
  else some (.normal piece)

/-- The components of a path. -/
def components (path : String) : List Component :=
  let pieces := splitAt '/' path
  let opening : List Component :=
    if isAbsolute path then [.root] else if pieces.head? = some "." then [.current] else []
  opening ++ pieces.filterMap componentOf

/-- The last component, when it is a name. -/
def fileName? (path : String) : Option String :=
  match (components path).getLast? with
  | some (.normal name) => some name
  | _ => none

/-- The number of characters of the opening `/` or `.` of a path, which are never cut off. -/
def openingLength (cs : List Char) : Nat :=
  match cs with
  | '/' :: _ => 1
  | '.' :: '/' :: _ => 1
  | ['.'] => 1
  | _ => 0

/-- Removes trailing slashes and trailing `.` pieces, in the text reversed. -/
def trimReversed (opening : Nat) : List Char → List Char
  | '/' :: rest =>
    if rest.length + 1 ≤ opening then '/' :: rest else trimReversed opening rest
  | '.' :: '/' :: rest =>
    if rest.length + 2 ≤ opening then '.' :: '/' :: rest else trimReversed opening ('/' :: rest)
  | cs => cs
termination_by cs => cs.length

/-- The text of a path up to its last component, without that component; nothing when the path has
no component or is the root. -/
def parent? (path : String) : Option String :=
  match (components path).getLast? with
  | none => none
  | some .root => none
  | some .current => some ""
  | some _ =>
    let cs := path.toList
    let opening := openingLength cs
    let trimmed := trimReversed opening cs.reverse
    -- The last piece, never reaching into the opening.
    let body := trimmed.take (trimmed.length - opening)
    let piece := body.takeWhile (· ≠ '/')
    some (String.ofList (trimReversed opening (trimmed.drop piece.length)).reverse)

/-- A path seen from a directory: an absolute path stands for itself. -/
def join (base path : String) : String :=
  if isAbsolute path then path
  else if base = "" ∨ base.toList.getLast? = some '/' then base ++ path
  else base ++ "/" ++ path

/-- The text of one component. -/
def Component.text : Component → String
  | .root => "/"
  | .current => "."
  | .up => ".."
  | .normal name => name

/-- Whether a path opens with exactly two slashes, which are kept as they are. -/
def opensDoubled (path : String) : Bool :=
  match path.toList with
  | '/' :: '/' :: c :: _ => c != '/'
  | ['/', '/'] => true
  | _ => false

/-- Whether a path ends in a slash. -/
def endsInSlash (path : String) : Bool := path.toList.getLast? == some '/'

/-- An absolute path without doubled slashes and `.`; every `..` and a closing slash stay.  A
relative path is seen from `directory`, and the empty path has no absolute form. -/
def absolute? (directory path : String) : Option String :=
  if path = "" then none
  else
    let own := (components path).filter fun c => c ≠ .root && c ≠ .current
    let start :=
      if opensDoubled path then "//" else if isAbsolute path then "/" else directory
    let full := own.foldl (fun base c => join base c.text) start
    some (if endsInSlash path && !endsInSlash full then full ++ "/" else full)

/-- Whether the components of `base` open `path`. -/
def startsWith (path base : String) : Bool :=
  (components base).isPrefixOf (components path)

/-- The place of a kind of component in the order of components. -/
def Component.rank : Component → Nat
  | .root => 0
  | .current => 1
  | .up => 2
  | .normal _ => 3

/-- Order of components: by kind, then by name. -/
def Component.compare (a b : Component) : Ordering :=
  match a, b with
  | .normal x, .normal y => Ord.compare x y
  | a, b => Ord.compare a.rank b.rank

/-- Order of paths, component by component. -/
def compareComponents : List Component → List Component → Ordering
  | [], [] => .eq
  | [], _ :: _ => .lt
  | _ :: _, [] => .gt
  | a :: as, b :: bs => (a.compare b).then (compareComponents as bs)

/-- Order of paths. -/
def compare (a b : String) : Ordering := compareComponents (components a) (components b)

end WorkflowEngine.Path
