import WorkflowEngine.Value.File

/-!
# Names of secondary files

A file may come with others whose names follow from its own: a suffix is added, and each caret in
front of the suffix first takes an extension off.

* **`secondaryPath`** — the path of a secondary file.
-/

namespace WorkflowEngine.Path

/-- A path, last character first, without the extension of its last name; nothing when the name has
none.  A dot that opens the name starts no extension. -/
def dropExtension? (reversed : List Char) : Option (List Char) :=
  let name := reversed.takeWhile (· ≠ '/')
  let extension := name.takeWhile (· ≠ '.')
  if extension.length + 1 < name.length then some (reversed.drop (extension.length + 1)) else none

/-- Takes extensions off, at most `n` of them. -/
def dropExtensions : Nat → List Char → List Char
  | 0, reversed => reversed
  | n + 1, reversed =>
    match dropExtension? reversed with
    | some shorter => dropExtensions n shorter
    | none => reversed

/-- The path of the secondary file that a pattern names for a primary file. -/
def secondaryPath (primary pattern : String) : String :=
  let carets := pattern.toList.takeWhile (· = '^')
  let suffix := pattern.toList.drop carets.length
  String.ofList ((dropExtensions carets.length primary.toList.reverse).reverse ++ suffix)

end WorkflowEngine.Path
