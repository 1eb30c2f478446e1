/-!
# White space

Two sets of blank characters are in use.  Placeholders and type names are trimmed of the
characters that Unicode lists as `White_Space`; scripts are trimmed of the white space and line
terminators of their own grammar, which leave out U+0085 and add the byte order mark.

* **`isWhiteSpace`**, **`isScriptSpace`** — the two classes.
* **`trimBy`** — a string without the leading and trailing characters of a class.
-/

namespace WorkflowEngine.Text

/-- The characters with the Unicode property `White_Space`. -/
def isWhiteSpace (c : Char) : Bool :=
  let n := c.toNat
  (9 ≤ n && n ≤ 13) || n == 0x20 || n == 0x85 || n == 0xA0 || n == 0x1680
    || (0x2000 ≤ n && n ≤ 0x200A) || n == 0x2028 || n == 0x2029 || n == 0x202F || n == 0x205F
    || n == 0x3000

/-- The white space and line terminators of the expression language. -/
def isScriptSpace (c : Char) : Bool :=
  (isWhiteSpace c && c.toNat != 0x85) || c.toNat == 0xFEFF

/-- The characters that end a line of a script. -/
def isLineEnd (c : Char) : Bool :=
  c == '\n' || c == '\r' || c.toNat == 0x2028 || c.toNat == 0x2029

/-- Drops the characters of a class from the end of a list. -/
def dropTrailing (p : Char → Bool) (cs : List Char) : List Char :=
  (cs.reverse.dropWhile p).reverse

/-- Drops the characters of a class from both ends of a list. -/
def trimList (p : Char → Bool) (cs : List Char) : List Char :=
  dropTrailing p (cs.dropWhile p)

/-- A string without the leading and trailing characters of a class. -/
def trimBy (p : Char → Bool) (s : String) : String :=
  String.ofList (trimList p s.toList)

/-- A string without leading and trailing white space. -/
def trim (s : String) : String := trimBy isWhiteSpace s

end WorkflowEngine.Text
