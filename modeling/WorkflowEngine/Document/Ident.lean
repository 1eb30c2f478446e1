import WorkflowEngine.Value.File

/-!
# Identifiers

Processes, steps and parameters are named by identifiers such as `#main/align/reads`.  A process is
known by an identifier that starts with `#`, a parameter by the last segment of its identifier.

* **`localName`** — the last segment.
* **`normalize`** — the form that starts with `#`.
* **`qualify`** — a reference seen from a process.
-/

namespace WorkflowEngine.Ident

/-- The text after the last occurrence of a character, or all of it. -/
def afterLast (sep : Char) (cs : List Char) : List Char :=
  (cs.reverse.takeWhile (· ≠ sep)).reverse

/-- The last segment of an identifier: what follows the last slash, and in it the last `#`. -/
def localName (id : String) : String :=
  String.ofList (afterLast '#' (afterLast '/' id.toList))

/-- An identifier from its first `#` on; without one, a `#` is put in front. -/
def normalize (id : String) : String :=
  let tail := id.toList.dropWhile (· ≠ '#')
  if tail.isEmpty then "#" ++ id else String.ofList tail

/-- A reference seen from a process: one with a `#` stands for itself, any other lies below the
process. -/
def qualify (scope reference : String) : String :=
  if reference.toList.contains '#' then normalize reference else scope ++ "/" ++ reference

end WorkflowEngine.Ident
