/-!
# Words in quotation marks

A word of a command line stands between quotation marks, and the characters that a shell reads
within them get a backslash.

* **`quote`** — the word in quotation marks.
-/

namespace WorkflowEngine.CommandLine

/-- Whether a shell reads a character within quotation marks. -/
def isSpecial (c : Char) : Bool :=
  c == '\\' || c.toNat == 34 || c == '$' || c.toNat == 96

/-- A character between quotation marks. -/
def quoteChar (c : Char) : List Char := if isSpecial c then ['\\', c] else [c]

/-- The quotation mark. -/
def quotation : Char := Char.ofNat 34

/-- A word in quotation marks. -/
def quote (word : String) : String :=
  String.ofList (quotation :: (word.toList.flatMap quoteChar ++ [quotation]))

end WorkflowEngine.CommandLine
