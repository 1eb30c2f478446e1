import WorkflowEngine.Text.Blank

/-!
# Texts quoted in messages

A message that shows a text puts it between quotation marks and escapes what would not be seen: the
quotation mark, the backslash, line ends, tabs, and by their number all characters without a shape
of their own.

* **`quoted`** — the quoted form of a text.
-/

namespace WorkflowEngine.Text

/-- Ranges of characters beyond ASCII without a shape of their own: control and format characters,
marks that join the character before, private and unassigned characters. -/
def shapeless : List (Nat × Nat) :=
  [(0x7F, 0xA0), (0xAD, 0xAD), (0x300, 0x36F), (0x483, 0x489), (0x591, 0x5BD), (0x600, 0x605),
   (0x64B, 0x65F), (0x61C, 0x61C), (0x6DD, 0x6DD), (0x70F, 0x70F), (0x1680, 0x1680),
   (0x180E, 0x180E), (0x2000, 0x200F), (0x2028, 0x202F), (0x205F, 0x206F), (0x20D0, 0x20F0),
   (0x3000, 0x3000), (0x302A, 0x302F), (0x3099, 0x309A), (0xD800, 0xF8FF), (0xFE00, 0xFE0F),
   (0xFE20, 0xFE2F), (0xFEFF, 0xFEFF), (0xFFF0, 0xFFFB), (0xFFFE, 0xFFFF),
   (0x1D173, 0x1D17A), (0xE0000, 0x10FFFF)]

/-- Whether a character has a shape of its own. -/
def hasShape (c : Char) : Bool :=
  0x20 ≤ c.toNat && !(shapeless.any fun (first, last) => first ≤ c.toNat && c.toNat ≤ last)

/-- The escape of a character by its number. -/
def numberEscape (c : Char) : List Char :=
  ['\\', 'u', '\x7b'] ++ Nat.toDigits 16 c.toNat ++ ['\x7d']

/-- A character of a quoted text. -/
def quotedChar (c : Char) : List Char :=
  if c.toNat == 34 then ['\\', c]
  else if c == '\\' then ['\\', '\\']
  else if c == '\n' then ['\\', 'n']
  else if c == '\r' then ['\\', 'r']
  else if c == '\t' then ['\\', 't']
  else if c.toNat == 0 then ['\\', '0']
  else if hasShape c then [c]
  else numberEscape c

/-- A text between quotation marks. -/
def quoted (s : String) : String :=
  "\"" ++ String.ofList (s.toList.flatMap quotedChar) ++ "\""

end WorkflowEngine.Text
