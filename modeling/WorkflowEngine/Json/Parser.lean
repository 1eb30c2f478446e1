import WorkflowEngine.Json.Basic

/-!
# Reading JSON text

The grammar is that of JSON with nothing added: one value between optional blanks, no comments, no
trailing commas, control characters escaped, surrogates in pairs.  Arrays and objects nest at most
127 deep.  When a key is repeated the last value wins, in the place of the first.

A number without fraction and exponent is an integer as long as it fits into 64 bits.  All other
numbers are read with two roundings: the digits, as many as fit into an unsigned integer of 64
bits, give a first floating point number, which is then multiplied or divided by a power of ten.

* **`Json.parse?`** — the value of a text.
-/

namespace WorkflowEngine.Json

/-- Whether a character may stand between the tokens of a text. -/
def isBlank (c : Char) : Bool := c == ' ' || c == '\n' || c == '\t' || c == '\r'

/-- What follows the blanks at the start. -/
def skipBlanks (cs : List Char) : List Char := cs.dropWhile isBlank

/-! ## Numbers -/

/-- The digits of a number taken into an integer of 64 bits, with the power of ten that is left. -/
structure Significand where
  value : Nat
  exponent : Int
  /-- Whether a digit was dropped because the integer was full. -/
  full : Bool

/-- Takes up a digit.  Before the point a dropped digit raises the exponent; after the point a digit
that was taken lowers it. -/
def Significand.push (s : Significand) (afterPoint : Bool) (c : Char) : Significand :=
  let value := s.value * 10 + (c.toNat - 48)
  if s.full || maxUnsigned.toNat < value then
    ⟨s.value, if afterPoint then s.exponent else s.exponent + 1, true⟩
  else ⟨value, if afterPoint then s.exponent - 1 else s.exponent, false⟩

/-- Ten to a power from 0 to 308. -/
def powerOfTen (n : Nat) : Float := Float.ofScientific 1 false n

/-- Divides by ten to the power `n`, in steps of `10 ^ 308`. -/
def divideByPower (x : Float) (n : Nat) : Nat → Float
  | 0 => x
  | fuel + 1 =>
    if n ≤ 308 then x / powerOfTen n
    else if x == 0 then x
    else divideByPower (x / powerOfTen 308) (n - 308) fuel

/-- The number `value · 10 ^ exponent`; nothing when it is too large. -/
def scaled? (value : Nat) (exponent : Int) : Option Float :=
  let x := Float.ofScientific value false 0
  if 0 ≤ exponent then
    if exponent ≤ 308 then
      let y := x * powerOfTen exponent.toNat
      if y.isInf then none else some y
    else if x == 0 then some x
    else none
  else some (divideByPower x (-exponent).toNat 5)

/-- A run of digits and what follows it. -/
def takeDigits (cs : List Char) : List Char × List Char :=
  (cs.takeWhile Char.isDigit, cs.dropWhile Char.isDigit)

/-- The value of a run of digits. -/
def digitsValue (ds : List Char) : Nat := ds.foldl (fun n c => n * 10 + (c.toNat - 48)) 0

/-- Reads the exponent of a number, if there is one. -/
def takeExponent : List Char → Option (Int × List Char)
  | c :: rest =>
    if c == 'e' || c == 'E' then
      let (negative, rest) := match rest with
        | '-' :: rest => (true, rest)
        | '+' :: rest => (false, rest)
        | rest => (false, rest)
      let (ds, rest) := takeDigits rest
      if ds.isEmpty then none
      else
        let n : Int := digitsValue ds
        some (if negative then -n else n, rest)
    else some (0, c :: rest)
  | [] => some (0, [])

/-- Reads a number. -/
def number (cs : List Char) : Option (Json × List Char) := do
  let (negative, cs) := match cs with
    | '-' :: rest => (true, rest)
    | cs => (false, cs)
  let (whole, rest) := takeDigits cs
  if whole.isEmpty then none
  if whole.length > 1 && whole.head? == some '0' then none
  let s := whole.foldl (fun (s : Significand) c => s.push false c) ⟨0, 0, false⟩
  let plain := match rest with
    | '.' :: _ => false
    | 'e' :: _ => false
    | 'E' :: _ => false
    | _ => !s.full
  if plain then
    let n : Int := if negative then -s.value else s.value
    if negative && (s.value == 0 || n < minSigned) then
      return (.float (-(Float.ofScientific s.value false 0)), rest)
    return (.int n, rest)
  let (s, rest) ← match rest with
    | '.' :: rest =>
      let (fraction, rest) := takeDigits rest
      if fraction.isEmpty then none
      else
        let start : Significand := ⟨s.value, s.exponent, false⟩
        some (fraction.foldl (fun (s : Significand) c => s.push true c) start, rest)
    | rest => some (s, rest)
  let (e, rest) ← takeExponent rest
  let x ← scaled? s.value (s.exponent + e)
  return (.float (if negative then -x else x), rest)

/-! ## Strings -/

/-- The value of a hexadecimal digit. -/
def hexValue? (c : Char) : Option Nat :=
  let n := c.toNat
  if 48 ≤ n && n ≤ 57 then some (n - 48)
  else if 97 ≤ n && n ≤ 102 then some (n - 87)
  else if 65 ≤ n && n ≤ 70 then some (n - 55)
  else none

/-- The value of four hexadecimal digits. -/
def hexQuad? (a b c d : Char) : Option Nat := do
  return ((((← hexValue? a) * 16 + (← hexValue? b)) * 16 + (← hexValue? c)) * 16) + (← hexValue? d)

/-- The character of a one-letter escape. -/
def simpleEscape? (c : Char) : Option Char :=
  match c with
  | '"' => some '"'
  | '\\' => some '\\'
  | '/' => some '/'
  | 'b' => some (Char.ofNat 8)
  | 'f' => some (Char.ofNat 12)
  | 'n' => some '\n'
  | 'r' => some '\r'
  | 't' => some '\t'
  | _ => none

/-- Reads a string after its opening quotation mark. -/
def stringBody : List Char → Option (List Char × List Char)
  | [] => none
  | '"' :: rest => some ([], rest)
  | '\\' :: 'u' :: a :: b :: c :: d :: '\\' :: 'u' :: e :: f :: g :: h :: rest => do
    let high ← hexQuad? a b c d
    if 0xD800 ≤ high && high ≤ 0xDBFF then
      let low ← hexQuad? e f g h
      if 0xDC00 ≤ low && low ≤ 0xDFFF then
        let (text, rest) ← stringBody rest
        some (Char.ofNat (0x10000 + (high - 0xD800) * 0x400 + (low - 0xDC00)) :: text, rest)
      else none
    else if 0xDC00 ≤ high && high ≤ 0xDFFF then none
    else
      let (text, rest) ← stringBody ('\\' :: 'u' :: e :: f :: g :: h :: rest)
      some (Char.ofNat high :: text, rest)
  | '\\' :: 'u' :: a :: b :: c :: d :: rest => do
    let n ← hexQuad? a b c d
    if 0xD800 ≤ n && n ≤ 0xDFFF then none
    else
      let (text, rest) ← stringBody rest
      some (Char.ofNat n :: text, rest)
  | '\\' :: c :: rest => do
    let c ← simpleEscape? c
    let (text, rest) ← stringBody rest
    some (c :: text, rest)
  | c :: rest =>
    if c.toNat < 0x20 || c == '\\' then none
    else do
      let (text, rest) ← stringBody rest
      some (c :: text, rest)
termination_by cs => cs.length
decreasing_by all_goals simp <;> omega

/-! ## Values -/

/-- The characters after a given word at the start. -/
def expect (word : List Char) (cs : List Char) : Option (List Char) :=
  if word.isPrefixOf cs then some (cs.drop word.length) else none

mutual

/-- Reads a value; `depth` more levels of arrays and objects are allowed. -/
def value : Nat → Nat → List Char → Option (Json × List Char)
  | 0, _, _ => none
  | fuel + 1, depth, cs =>
    match skipBlanks cs with
    | [] => none
    | '"' :: rest => do
      let (s, rest) ← stringBody rest
      some (.str (String.ofList s), rest)
    | '[' :: rest =>
      match depth with
      | 0 => none
      | depth + 1 =>
        match skipBlanks rest with
        | ']' :: rest => some (.arr [], rest)
        | rest => do
          let (items, rest) ← itemList fuel depth rest
          some (.arr items, rest)
    | '\x7b' :: rest =>
      match depth with
      | 0 => none
      | depth + 1 =>
        match skipBlanks rest with
        | '\x7d' :: rest => some (.obj [], rest)
        | rest => do
          let (members, rest) ← memberList fuel depth rest
          some (.obj (OrderedMap.ofList members), rest)
    | 'n' :: rest => (expect "ull".toList rest).map (Json.null, ·)
    | 't' :: rest => (expect "rue".toList rest).map (Json.bool true, ·)
    | 'f' :: rest => (expect "alse".toList rest).map (Json.bool false, ·)
    | cs => number cs

/-- Reads the items of an array that is not empty, and its closing bracket. -/
def itemList : Nat → Nat → List Char → Option (List Json × List Char)
  | 0, _, _ => none
  | fuel + 1, depth, cs => do
    let (item, rest) ← value fuel depth cs
    match skipBlanks rest with
    | ',' :: rest => do
      let (items, rest) ← itemList fuel depth rest
      some (item :: items, rest)
    | ']' :: rest => some ([item], rest)
    | _ => none

/-- Reads the members of an object that is not empty, and its closing brace. -/
def memberList : Nat → Nat → List Char → Option (List (String × Json) × List Char)
  | 0, _, _ => none
  | fuel + 1, depth, cs => do
    let (key, rest) ← match skipBlanks cs with
      | '"' :: rest => stringBody rest
      | _ => none
    let rest ← match skipBlanks rest with
      | ':' :: rest => some rest
      | _ => none
    let (item, rest) ← value fuel depth rest
    match skipBlanks rest with
    | ',' :: rest => do
      let (members, rest) ← memberList fuel depth rest
      some ((String.ofList key, item) :: members, rest)
    | '\x7d' :: rest => some ([(String.ofList key, item)], rest)
    | _ => none

end

/-- The number of levels of arrays and objects that a text may have. -/
def depthLimit : Nat := 127

/-- The value of a text. -/
def parse? (text : String) : Option Json := do
  let cs := text.toList
  let (json, rest) ← value (2 * cs.length + 2) depthLimit cs
  if (skipBlanks rest).isEmpty then some json else none

end WorkflowEngine.Json
