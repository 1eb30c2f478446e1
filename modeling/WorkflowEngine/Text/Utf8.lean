/-!
# Reading bytes as text

A file's bytes are text when they are well-formed UTF-8.  Where the engine must show bytes that
are not, each maximal ill-formed piece becomes one replacement character U+FFFD.

* **`decodeLossy`** — the text of any bytes.
* **`decode?`** — the text of well-formed bytes only.
* **`encode`** — the bytes of a text.
-/

namespace WorkflowEngine.Text

/-- Bytes of a file or of an escaped name. -/
abbrev Bytes := List UInt8

/-- The UTF-8 bytes of a text. -/
def encode (s : String) : Bytes := s.toUTF8.toList

/-- The length of the sequence that a lead byte opens, and the range of its second byte.  The
ranges shut out overlong forms, surrogates and numbers above U+10FFFF. -/
def leadByte (b : UInt8) : Option (Nat × UInt8 × UInt8) :=
  if 0xC2 ≤ b && b ≤ 0xDF then some (2, 0x80, 0xBF)
  else if b == 0xE0 then some (3, 0xA0, 0xBF)
  else if b == 0xED then some (3, 0x80, 0x9F)
  else if 0xE1 ≤ b && b ≤ 0xEF then some (3, 0x80, 0xBF)
  else if b == 0xF0 then some (4, 0x90, 0xBF)
  else if b == 0xF4 then some (4, 0x80, 0x8F)
  else if 0xF1 ≤ b && b ≤ 0xF3 then some (4, 0x80, 0xBF)
  else none

/-- Whether a byte continues a sequence. -/
def isContinuation (b : UInt8) : Bool := 0x80 ≤ b && b ≤ 0xBF

/-- What stands at the start of some bytes: a character, or an ill-formed piece, with the number
of bytes it takes. -/
inductive Piece where
  | char (c : Char) (length : Nat)
  | illFormed (length : Nat)

/-- The bits that a continuation byte adds. -/
def payload (b : UInt8) : Nat := b.toNat % 64

/-- The first piece of some bytes. -/
def firstPiece (b : UInt8) (rest : Bytes) : Piece :=
  if b < 0x80 then .char (Char.ofNat b.toNat) 1
  else
    match leadByte b with
    | none => .illFormed 1
    | some (n, lo, hi) =>
      match rest with
      | [] => .illFormed 1
      | b₁ :: rest₁ =>
        if !(lo ≤ b₁ && b₁ ≤ hi) then .illFormed 1
        else if n == 2 then .char (Char.ofNat (b.toNat % 32 * 64 + payload b₁)) 2
        else
          match rest₁ with
          | [] => .illFormed 2
          | b₂ :: rest₂ =>
            if !isContinuation b₂ then .illFormed 2
            else if n == 3 then
              .char (Char.ofNat ((b.toNat % 16 * 64 + payload b₁) * 64 + payload b₂)) 3
            else
              match rest₂ with
              | [] => .illFormed 3
              | b₃ :: _ =>
                if !isContinuation b₃ then .illFormed 3
                else
                  .char (Char.ofNat
                    (((b.toNat % 8 * 64 + payload b₁) * 64 + payload b₂) * 64 + payload b₃)) 4

/-- The number of further bytes that a piece takes after its first. -/
def Piece.extra : Piece → Nat
  | .char _ n => n - 1
  | .illFormed n => n - 1

/-- The pieces of some bytes, in order. -/
def pieces : Bytes → List Piece
  | [] => []
  | b :: rest =>
    let piece := firstPiece b rest
    piece :: pieces (rest.drop piece.extra)
termination_by bytes => bytes.length
decreasing_by simp only [List.length_drop, List.length_cons]; omega

/-- The character of a well-formed piece. -/
def Piece.char? : Piece → Option Char
  | .char c _ => some c
  | .illFormed _ => none

/-- The text of any bytes, with a replacement character for each ill-formed piece. -/
def decodeLossy (bytes : Bytes) : String :=
  String.ofList ((pieces bytes).map fun piece => piece.char?.getD (Char.ofNat 0xFFFD))

/-- The text of well-formed bytes. -/
def decode? (bytes : Bytes) : Option String :=
  ((pieces bytes).mapM Piece.char?).map String.ofList

end WorkflowEngine.Text
