import WorkflowEngine.Path.Lexical
import WorkflowEngine.Text.Utf8
import WorkflowEngine.Json.Parser

/-!
# Paths of `file` URLs

A location is a path or a `file://` URL.  A URL is read by the rules for special schemes: blanks
at the ends and all tabs and line breaks are dropped, a backslash is a slash, a query and a fragment
end the path, dot segments (also escaped ones) are resolved, and the escapes of the path are
decoded to bytes.  A host other than `localhost` names no local path.  Drive letters are kept apart:
a first segment `c:` is never removed by `..` and drops the host.

* **`FileUrl.path?`** — the path of a URL.
* **`FileUrl.locationPath`** — the path of a location; a URL without a local path loses its scheme.
-/

namespace WorkflowEngine.FileUrl

/-- The scheme with the slashes that follow it. -/
def scheme : List Char := "file://".toList

/-- The text after every leading occurrence of the scheme. -/
def dropSchemes (cs : List Char) : List Char :=
  if _h : scheme.isPrefixOf cs ∧ 0 < cs.length then dropSchemes (cs.drop scheme.length) else cs
termination_by cs.length
decreasing_by
  have : scheme.length = 7 := by decide
  simp only [List.length_drop]; omega

/-- Decodes the escapes `%xx` of a text to bytes; a percent sign that opens no escape stays. -/
def decodePercent : List Char → Text.Bytes
  | [] => []
  | '%' :: a :: b :: rest =>
    match Json.hexValue? a, Json.hexValue? b with
    | some x, some y => UInt8.ofNat (x * 16 + y) :: decodePercent rest
    | _, _ => Text.encode "%" ++ decodePercent (a :: b :: rest)
  | c :: rest => Text.encode (String.singleton c) ++ decodePercent rest
termination_by cs => cs.length

/-- Whether a text is a letter followed by a colon or a bar. -/
def isDriveLetter : List Char → Bool
  | [c, d] => c.isAlpha && (d == ':' || d == '|')
  | _ => false

/-- Replaces escaped dots in a segment that consists of dots. -/
def plainDots : List Char → List Char
  | '%' :: '2' :: e :: rest =>
    if e == 'e' || e == 'E' then '.' :: plainDots rest else '%' :: '2' :: e :: rest
  | '.' :: rest => '.' :: plainDots rest
  | cs => cs

/-- A segment as it is kept: a drive letter in the first place ends in a colon and is cut off from
what follows it. -/
def firstSegment : List Char → List (List Char)
  | [c, d] => if isDriveLetter [c, d] then [[c, ':']] else [[c, d]]
  | c :: ':' :: rest => if c.isAlpha then [[c, ':'], rest] else [c :: ':' :: rest]
  | segment => [segment]

/-- Resolves the dot segments of a path; `kept` holds the segments before, last first. -/
def resolveDots (kept : List (List Char)) : List (List Char) → List (List Char)
  | [] => kept.reverse
  | segment :: rest =>
    let dots := plainDots segment
    let last := rest.isEmpty
    if dots == ['.', '.'] then
      let kept := match kept with
        | [] => []
        | [d] => if isDriveLetter d then [d] else []
        | _ :: kept => kept
      if last then ([] :: kept).reverse else resolveDots kept rest
    else if dots == ['.'] then
      if last then ([] :: kept).reverse else resolveDots kept rest
    else if kept.isEmpty then resolveDots (firstSegment segment).reverse rest
    else resolveDots (segment :: kept) rest

/-- The characters that a host name must not hold. -/
def isForbiddenInHost (c : Char) : Bool :=
  c.toNat ≤ 0x20 || c.toNat == 0x7F || "#/:<>?@[\\]^|%".toList.contains c

/-- What a URL says about its host. -/
inductive Host where
  | none
  | some
  | invalid
  deriving DecidableEq

/-- The host of a URL, from the text before the path. -/
def hostOf (cs : List Char) : Host :=
  if cs.isEmpty then .none
  else
    let name := (Text.decodeLossy (decodePercent cs)).toList.map Char.toLower
    if name == "localhost".toList then .none
    else if name.any isForbiddenInHost then .invalid
    else .some

/-- Whether a character ends the host. -/
def endsHost (c : Char) : Bool := c == '/' || c == '\\' || c == '?' || c == '#'

/-- The path of a `file://` URL. -/
def path? (url : String) : Option String :=
  let trimmed := (url.toList.reverse.dropWhile fun c => c.toNat ≤ 0x20).reverse
  let cs := (trimmed.drop scheme.length).filter fun c => c != '\t' && c != '\n' && c != '\r'
  let authority := cs.takeWhile (!endsHost ·)
  let (host, rest) :=
    if isDriveLetter authority then (Host.none, cs) else (hostOf authority, cs.drop authority.length)
  let path := (rest.takeWhile fun c => c != '?' && c != '#').map fun c => if c == '\\' then '/' else c
  let path := match path with
    | '/' :: path => path
    | path => path
  let segments := resolveDots [] (Path.splitChars '/' path)
  let local_ := match host with
    | .none => true
    | .some => match segments with
      | first :: _ => isDriveLetter first
      | [] => false
    | .invalid => false
  if !local_ then none
  else
    let segments := segments.dropLast.dropWhile List.isEmpty ++ segments.getLast?.toList
    let bytes := segments.flatMap fun s => Text.encode "/" ++ decodePercent s
    let closing := match bytes.reverse with
      | d :: c :: _ :: _ =>
        (d == 0x3A || d == 0x7C) && (Char.ofNat c.toNat).isAlpha
      | _ => false
    some (Text.decodeLossy (if closing then bytes ++ Text.encode "/" else bytes))

/-- The path of a location. -/
def locationPath (location : String) : String :=
  if scheme.isPrefixOf location.toList then
    (path? location).getD (String.ofList (dropSchemes location.toList))
  else location

end WorkflowEngine.FileUrl
