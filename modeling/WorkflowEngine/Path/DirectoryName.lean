import WorkflowEngine.Text.Utf8

/-!
# Directory names for identifiers

Each task has directories of its own.  Their name comes from the identifier of the task: slashes
become underscores, and every character that is not a letter, a digit, a dot or a hyphen is escaped
by its bytes.  An underscore is escaped too, so different identifiers have different names.

* **`directoryName`** — the name for an identifier.
-/

namespace WorkflowEngine.Path

/-- A hexadecimal digit in upper case. -/
def upperHexDigit (n : Nat) : Char := (Nat.digitChar (n % 16)).toUpper

/-- Whether a character stands for itself in a directory name. -/
def isPlainInName (c : Char) : Bool := c.isAlphanum || c == '.' || c == '-'

/-- The escape of a byte. -/
def escapedByte (b : UInt8) : List Char :=
  ['%', upperHexDigit (b.toNat / 16), upperHexDigit b.toNat]

/-- A character of an identifier in a directory name. -/
def nameChar (c : Char) : List Char :=
  if isPlainInName c then [c]
  else if c == '/' then ['_']
  else (Text.encode (String.singleton c)).flatMap escapedByte

/-- The directory name for an identifier; leading `#` are dropped. -/
def directoryName (id : String) : String :=
  String.ofList ((id.toList.dropWhile (· = '#')).flatMap nameChar)

end WorkflowEngine.Path
