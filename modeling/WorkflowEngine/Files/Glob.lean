import WorkflowEngine.Files.Tree

/-!
# Patterns of paths

A pattern is a path in which `?` stands for any character, `*` for any characters, `[…]` for one
character of a class and `[!…]` for one outside it; `**` as a whole name stands for any number of
directories.  Names are matched one by one against what is in the tree, and a name without special
characters is looked up as it is.

* **`PatternFault`** — why a text is no pattern.
* **`NamePattern`**, **`NamePattern.parse`** — the pattern of a name.
* **`NamePattern.accepts`** — the names that a pattern stands for.
* **`glob`** — the paths of a tree that a pattern stands for.
-/

namespace WorkflowEngine.Glob

/-! ## Patterns -/

/-- Characters from the first to the second. -/
abbrev CharRange := Char × Char

/-- A piece of a pattern. -/
inductive Token where
  | char (c : Char)
  | anyChar
  | anyChars
  | anyDirectories
  | oneOf (ranges : List CharRange)
  | noneOf (ranges : List CharRange)
  deriving Repr, DecidableEq, Inhabited

/-- Why a text is no pattern, and after how many characters. -/
inductive PatternFault where
  | tooManyStars (position : Nat)
  | starsWithinName (position : Nat)
  | openClass (position : Nat)
  deriving Repr, DecidableEq

/-- The message of a fault. -/
def PatternFault.message : PatternFault → String
  | .tooManyStars n => at_ n "wildcards are either regular `*` or recursive `**`"
  | .starsWithinName n => at_ n "recursive wildcards must form a single path component"
  | .openClass n => at_ n "invalid range pattern"
where
  /-- A reason with its position. -/
  at_ (n : Nat) (reason : String) : String :=
    "Pattern syntax error near position " ++ toString n ++ ": " ++ reason

/-- The ranges of a class. -/
def rangesOf : List Char → List CharRange
  | a :: '-' :: b :: rest => (a, b) :: rangesOf rest
  | a :: rest => (a, a) :: rangesOf rest
  | [] => []

/-- A class after its opening bracket: whether it excludes, its characters, and what follows its
closing bracket.  The first character never closes it. -/
def classOf? (cs : List Char) : Option (Bool × List Char × List Char) :=
  let upTo (first : Char) (rest : List Char) : Option (List Char × List Char) :=
    let more := rest.takeWhile (· ≠ ']')
    if more.length < rest.length then some (first :: more, rest.drop (more.length + 1)) else none
  match cs with
  | '!' :: first :: rest => (upTo first rest).map fun (set, rest) => (true, set, rest)
  | '!' :: [] => none
  | first :: rest => (upTo first rest).map fun (set, rest) => (false, set, rest)
  | [] => none

/-- The tokens of a pattern: `before` is the last character read and `position` the number of those
read, and at most `fuel` more tokens follow. -/
def tokensFrom (before : Option Char) (position : Nat) :
    Nat → List Char → Except PatternFault (List Token)
  | 0, _ => .ok []
  | _, [] => .ok []
  | fuel + 1, '?' :: rest => do
    return .anyChar :: (← tokensFrom (some '?') (position + 1) fuel rest)
  | fuel + 1, '*' :: rest => do
    let stars := (rest.takeWhile (· = '*')).length + 1
    let rest := rest.drop (stars - 1)
    if 2 < stars then throw (.tooManyStars (position + 2))
    else if stars = 2 then
      if !before.all (· = '/') then throw (.starsWithinName (position - 1))
      if !rest.head?.all (· = '/') then throw (.starsWithinName (position + 2))
      match rest with
      | _ :: rest => return .anyDirectories :: (← tokensFrom (some '/') (position + 3) fuel rest)
      | [] => return [.anyDirectories]
    else return .anyChars :: (← tokensFrom (some '*') (position + 1) fuel rest)
  | fuel + 1, '[' :: rest =>
    match classOf? rest with
    | none => .error (.openClass position)
    | some (excludes, set, after) => do
      let token := if excludes then Token.noneOf (rangesOf set) else .oneOf (rangesOf set)
      let read := rest.length - after.length + 1
      return token :: (← tokensFrom (some ']') (position + read) fuel after)
  | fuel + 1, c :: rest => do
    return .char c :: (← tokensFrom (some c) (position + 1) fuel rest)

/-- The tokens of a pattern. -/
def tokens (cs : List Char) : Except PatternFault (List Token) :=
  tokensFrom none 0 (cs.length + 1) cs

/-- The pattern of a name. -/
structure NamePattern where
  tokens : List Token
  deriving Repr, DecidableEq, Inhabited

namespace NamePattern

/-- Reads the pattern of a name. -/
def parse (name : List Char) : Except PatternFault NamePattern :=
  (Glob.tokens name).map fun tokens => ⟨tokens⟩

/-- Whether a pattern stands for any number of directories. -/
def isRecursive (p : NamePattern) : Bool := p.tokens.contains .anyDirectories

/-- The name of a pattern without special characters. -/
def literal? (p : NamePattern) : Option String :=
  (p.tokens.mapM fun
    | Token.char c => some c
    | _ => none).map String.ofList

end NamePattern

/-! ## Matching -/

/-- Whether a character lies in one of some ranges. -/
def inRanges (ranges : List CharRange) (c : Char) : Bool :=
  ranges.any fun (first, last) => first ≤ c && c ≤ last

/-- Whether a token stands for a character. -/
def Token.acceptsChar (token : Token) (c : Char) : Bool :=
  match token with
  | .char d => c = d
  | .anyChar => true
  | .anyChars => true
  | .anyDirectories => true
  | .oneOf ranges => inRanges ranges c
  | .noneOf ranges => !inRanges ranges c

/-- Whether a token stands for any number of characters. -/
def Token.repeats : Token → Bool
  | .anyChars => true
  | .anyDirectories => true
  | _ => false

/-- Whether one of the ends of a list satisfies a test. -/
def anyEnd (test : List Char → Bool) : List Char → Bool
  | [] => test []
  | c :: rest => test (c :: rest) || anyEnd test rest

/-- Whether some tokens stand for some characters. -/
def accepts : List Token → List Char → Bool
  | [], cs => cs.isEmpty
  | token :: rest, cs =>
    if token.repeats then anyEnd (accepts rest) cs
    else
      match cs with
      | [] => false
      | c :: cs => token.acceptsChar c && accepts rest cs

/-- Whether a pattern stands for a name. -/
def NamePattern.accepts (p : NamePattern) (name : String) : Bool :=
  Glob.accepts p.tokens name.toList

/-! ## Search -/

/-- Where a search takes place, and whether only directories are looked for. -/
structure Search where
  tree : FileTree
  directoriesOnly : Bool

namespace Search

/-- The path as a result. -/
def keep (s : Search) (path : String) : List String :=
  if s.directoriesOnly && !s.tree.isDirectory path then [] else [path]

/-- The entries of a directory. -/
def entries (s : Search) (path : String) : List String :=
  match s.tree.locate path with
  | .ok place => s.tree.children place
  | .error _ => []

/-- The results at and below an entry of a directory; `below` searches a directory for patterns. -/
def visit (s : Search) (below : List NamePattern → String → List String)
    (patterns : List NamePattern) (path : String) : List String :=
  let plain (patterns : List NamePattern) : List String :=
    match patterns with
    | [] => []
    | p :: rest =>
      if (Path.fileName? path).any p.accepts then
        if rest.isEmpty then s.keep path else below rest path
      else []
  match patterns with
  | [] => []
  | p :: _ =>
    if p.isRecursive then
      let rest := patterns.dropWhile NamePattern.isRecursive
      let inside := if s.tree.isDirectory path then below (p :: rest) path else []
      let here :=
        if !rest.isEmpty then plain rest else if s.tree.isDirectory path then [path] else []
      inside ++ here
    else plain patterns

/-- The results below a directory, at most `fuel` levels down. -/
def below (s : Search) : Nat → List NamePattern → String → List String
  | 0, _, _ => []
  | _ + 1, [], _ => []
  | fuel + 1, p :: rest, path =>
    let found (next : String) : List String :=
      if rest.isEmpty then s.keep next else below s fuel rest next
    match p.literal? with
    | some name =>
      let next := Path.join path name
      let there :=
        if name = "." ∨ name = ".." then s.tree.isDirectory path else s.tree.exists? next
      if there then found next else []
    | none =>
      if s.tree.isDirectory path then
        let dots :=
          if p.tokens.head? = some (.char '.') then
            ([".", ".."].filter p.accepts).flatMap fun dots => found (Path.join path dots)
          else []
        dots ++ (s.entries path).flatMap fun name =>
          visit s (below s fuel) (p :: rest) (Path.join path name)
      else []

/-- The number of levels of a tree. -/
def levels (tree : FileTree) : Nat :=
  tree.nodes.foldl (fun n (place, _) => max n place.length) 0

end Search

/-- The names of a pattern: what stands between slashes, without a last piece that is empty. -/
def namesOf (cs : List Char) : List (List Char) :=
  let pieces := Path.splitChars '/' cs
  if pieces.getLast? = some [] then pieces.dropLast else pieces

/-- The paths that an absolute pattern stands for. -/
def glob (tree : FileTree) (pattern : String) : Except PatternFault (List String) := do
  let cs := pattern.toList
  let _ ← tokens cs
  let slashes := cs.takeWhile (· = '/')
  let rest := cs.drop slashes.length
  let patterns ← if rest.isEmpty then pure [⟨[]⟩] else (namesOf rest).mapM NamePattern.parse
  let search : Search := ⟨tree, Path.endsInSlash pattern⟩
  let fuel := (patterns.length + 1) * (Search.levels tree + 2)
  return search.below fuel patterns (String.ofList slashes)

end WorkflowEngine.Glob
