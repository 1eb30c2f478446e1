import WorkflowEngine.Text.Blank
import WorkflowEngine.Text.Case

/-!
# Strings of scripts

A string of the expression language is a sequence of 16-bit units: a character beyond U+FFFF counts
as two, and cutting may leave half of one.  Outside a script such a lone half is written as the
escape `\uXXXX`.

* **`Units`** — the type.
* **`Units.ofString`**, **`Units.toString`** — the way in and out.
* **`Units.indexOf`**, **`Units.split`**, **`Units.replaceFirst`**, **`Units.trim`**,
  **`Units.upper`** — operations.
-/

namespace WorkflowEngine.Script

/-- A string of 16-bit units. -/
abbrev Units := List UInt16

namespace Units

/-- The units of a code point. -/
def ofCode (n : Nat) : Units :=
  if n < 0x10000 then [UInt16.ofNat n]
  else [UInt16.ofNat (0xD800 + (n - 0x10000) / 0x400), UInt16.ofNat (0xDC00 + (n - 0x10000) % 0x400)]

/-- The units of a text. -/
def ofString (s : String) : Units := s.toList.flatMap fun c => ofCode c.toNat

/-- Whether a unit is the first half of a character. -/
def isHigh (u : UInt16) : Bool := 0xD800 ≤ u && u ≤ 0xDBFF

/-- Whether a unit is the second half of a character. -/
def isLow (u : UInt16) : Bool := 0xDC00 ≤ u && u ≤ 0xDFFF

/-- The code points of a string; a lone half stands for itself. -/
def codes : Units → List Nat
  | [] => []
  | [u] => [u.toNat]
  | u :: v :: rest =>
    if isHigh u && isLow v then
      (0x10000 + (u.toNat - 0xD800) * 0x400 + (v.toNat - 0xDC00)) :: codes rest
    else u.toNat :: codes (v :: rest)

/-- A hexadecimal digit in upper case. -/
def hexUpper (n : Nat) : Char := (Nat.digitChar (n % 16)).toUpper

/-- The text of a code point; a lone half is written as an escape. -/
def charsOfCode (n : Nat) : List Char :=
  if 0xD800 ≤ n ∧ n ≤ 0xDFFF then
    ['\\', 'u', hexUpper (n / 4096), hexUpper (n / 256), hexUpper (n / 16), hexUpper n]
  else [Char.ofNat n]

/-- The text of a string. -/
def toString (u : Units) : String := String.ofList ((codes u).flatMap charsOfCode)

/-- Order of strings, unit by unit. -/
def less : Units → Units → Bool
  | _, [] => false
  | [], _ :: _ => true
  | a :: as, b :: bs => a < b || (a == b && less as bs)

/-- The position of the first occurrence of a string, counted from `start`. -/
def indexFrom (needle : Units) : Nat → Units → Option Nat
  | start, [] => if needle.isEmpty then some start else none
  | start, u :: rest =>
    if needle.isPrefixOf (u :: rest) then some start else indexFrom needle (start + 1) rest

/-- The position of the first occurrence of a string at or after a position. -/
def indexOf (s needle : Units) (start : Nat) : Option Nat :=
  indexFrom needle (min start s.length) (s.drop start)

/-- The position of the last occurrence of a string at or before a position. -/
def lastIndexOf (s needle : Units) (start : Nat) : Option Nat :=
  ((List.range (min start s.length + 1)).reverse).find? fun i => needle.isPrefixOf (s.drop i)

/-- Cuts a string at each occurrence of a separator that is not empty. -/
def splitOn (sep : Units) (current : Units) (skip : Nat) : Units → List Units
  | [] => [current.reverse]
  | u :: rest =>
    match skip with
    | k + 1 => splitOn sep current k rest
    | 0 =>
      if sep.isPrefixOf (u :: rest) then current.reverse :: splitOn sep [] (sep.length - 1) rest
      else splitOn sep (u :: current) 0 rest

/-- Cuts a string at each occurrence of a separator; an empty separator cuts it into its units. -/
def split (s sep : Units) : List Units :=
  if sep.isEmpty then s.map fun u => [u] else splitOn sep [] 0 s

/-- The string between two positions. -/
def slice (s : Units) (start stop : Nat) : Units := (s.take stop).drop start

/-- Whether a unit is blank for scripts. -/
def isBlank (u : UInt16) : Bool := Text.isScriptSpace (Char.ofNat u.toNat)

/-- A string without leading blanks. -/
def trimStart (s : Units) : Units := s.dropWhile isBlank

/-- A string without trailing blanks. -/
def trimEnd (s : Units) : Units := (s.reverse.dropWhile isBlank).reverse

/-- A string without leading and trailing blanks. -/
def trim (s : Units) : Units := trimEnd (trimStart s)

/-- Upper case of a string. -/
def upper (s : Units) : Units := (Text.upper (codes s)).flatMap ofCode

/-- Lower case of a string. -/
def lower (s : Units) : Units := (Text.lower (codes s)).flatMap ofCode

end Units

end WorkflowEngine.Script
